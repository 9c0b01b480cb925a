import PolyLex.Proofs.Text.Lines

/-!
# Two ways to end a line

`withReturns` turns each line feed of a text into the pair of carriage return and line feed. It goes
through a text character by character (`withReturns_append`), so cutting the text and cutting what
it becomes are the same cut: after characters of a class (`takeWhile_withReturns`), after a line
(`firstLine_withReturns`) or behind an opening (`after?_withReturns`).
-/

namespace PolyLex.Text

/-- The text with a carriage return before each line feed. -/
def withReturns (cs : List Char) : List Char :=
  cs.flatMap fun c => if c = '\n' then ['\r', '\n'] else [c]

theorem withReturns_append (v w : List Char) :
    withReturns (v ++ w) = withReturns v ++ withReturns w :=
  List.flatMap_append

@[simp] theorem withReturns_nil : withReturns [] = [] := rfl

@[simp] theorem withReturns_lineFeed (cs : List Char) :
    withReturns ('\n' :: cs) = '\r' :: '\n' :: withReturns cs := rfl

theorem withReturns_cons_of_ne {c : Char} (h : c ≠ '\n') (cs : List Char) :
    withReturns (c :: cs) = c :: withReturns cs := by
  rw [withReturns, List.flatMap_cons, if_neg h]
  rfl

/-- A text without line feeds stays as it is. -/
theorem withReturns_of_not_mem {cs : List Char} (h : '\n' ∉ cs) : withReturns cs = cs := by
  induction cs with
  | nil => rfl
  | cons c cs ih =>
    rw [List.mem_cons, not_or] at h
    rw [withReturns_cons_of_ne (Ne.symm h.1), ih h.2]

/-- Each line feed makes the text longer by one carriage return. -/
theorem length_withReturns (cs : List Char) :
    (withReturns cs).length = cs.length + cs.count '\n' := by
  induction cs with
  | nil => rfl
  | cons c cs ih =>
    by_cases hc : c = '\n'
    · subst hc
      rw [withReturns_lineFeed, List.length_cons, List.length_cons, ih, List.count_cons_self,
        List.length_cons]
      omega
    · rw [withReturns_cons_of_ne hc, List.length_cons, ih, List.count_cons_of_ne hc,
        List.length_cons]
      omega

theorem withReturns_ne_nil {cs : List Char} (h : cs ≠ []) : withReturns cs ≠ [] := by
  have hpos := List.length_pos_iff.mpr h
  rw [← List.length_pos_iff, length_withReturns]
  omega

/-! ### Cuts -/

/-- What is taken before the returns are added can be taken after. -/
theorem take_withReturns (n : Nat) (cs : List Char) :
    (withReturns cs).take (withReturns (cs.take n)).length = withReturns (cs.take n) := by
  have h := withReturns_append (cs.take n) (cs.drop n)
  rw [List.take_append_drop] at h
  rw [h, List.take_left]

/-- What is dropped before the returns are added can be dropped after. -/
theorem drop_withReturns {w cs : List Char} (h : w <+: cs) :
    (withReturns cs).drop (withReturns w).length = withReturns (cs.drop w.length) := by
  obtain ⟨more, rfl⟩ := h
  rw [withReturns_append, List.drop_left, List.drop_left]

/-- Of two openings of a text the longer one stays the longer one. -/
theorem length_withReturns_take_lt_iff {m n : Nat} {cs : List Char} (hm : m ≤ cs.length)
    (hn : n ≤ cs.length) :
    (withReturns (cs.take m)).length < (withReturns (cs.take n)).length ↔ m < n := by
  have hcount : ∀ {i j : Nat}, i ≤ j → (cs.take i).count '\n' ≤ (cs.take j).count '\n' := by
    intro i j hij
    exact (List.take_prefix_take_left hij).sublist.count_le _
  rw [length_withReturns, length_withReturns, List.length_take, List.length_take,
    Nat.min_eq_left hm, Nat.min_eq_left hn]
  constructor
  · intro hlt
    apply Nat.lt_of_not_le
    intro hle
    have := hcount hle
    omega
  · intro hlt
    have := hcount (Nat.le_of_lt hlt)
    omega

/-- The first line with returns is the first line, with returns. -/
theorem firstLine_withReturns (cs : List Char) :
    firstLine (withReturns cs) =
      (withReturns (firstLine cs).1, withReturns (firstLine cs).2) := by
  induction cs with
  | nil => rfl
  | cons c cs ih =>
    by_cases hc : c = '\n'
    · subst hc
      rfl
    · rw [withReturns_cons_of_ne hc, firstLine, if_neg hc, firstLine, if_neg hc, ih]
      simp only [withReturns_cons_of_ne hc]

/-- A class that does not tell the two line ends apart has the same run. -/
theorem takeWhile_withReturns {q : Char → Bool} (hq : q '\r' = q '\n') (cs : List Char) :
    (withReturns cs).takeWhile q = withReturns (cs.takeWhile q) := by
  induction cs with
  | nil => rfl
  | cons c cs ih =>
    by_cases hc : c = '\n'
    · subst hc
      rw [withReturns_lineFeed, List.takeWhile_cons, List.takeWhile_cons, List.takeWhile_cons, hq]
      cases q '\n' with
      | false => rfl
      | true => simp [ih]
    · rw [withReturns_cons_of_ne hc, List.takeWhile_cons, List.takeWhile_cons]
      cases q c with
      | false => rfl
      | true => simp [withReturns_cons_of_ne hc, ih]

/-- A class without line feeds has the very same run. -/
theorem takeWhile_withReturns_of_false {q : Char → Bool} (hn : q '\n' = false)
    (hr : q '\r' = false) (cs : List Char) : (withReturns cs).takeWhile q = cs.takeWhile q := by
  rw [takeWhile_withReturns (hr.trans hn.symm), withReturns_of_not_mem]
  intro hmem
  rw [List.all_eq_true.mp List.all_takeWhile _ hmem] at hn
  cases hn

/-! ### Openings -/

/-- A mark without line ends is found at the same place with returns and without. -/
theorem after?_withReturns {lead : List Char} (h : NoTerminator lead) : ∀ cs : List Char,
    after? lead (withReturns cs) = (after? lead cs).map withReturns := by
  induction lead with
  | nil =>
    intro cs
    rfl
  | cons a lead ih =>
    obtain ⟨hn, hr⟩ := h a List.mem_cons_self
    have hlead : NoTerminator lead := fun c hc => h c (List.mem_cons_of_mem _ hc)
    intro cs
    cases cs with
    | nil => rfl
    | cons c cs =>
      -- At a line feed the mark ends, with the return and without it.
      by_cases hc : c = '\n'
      · subst hc
        rw [withReturns_lineFeed, after?, if_neg hr, after?, if_neg hn]
        rfl
      · rw [withReturns_cons_of_ne hc, after?, after?, ih hlead]
        split <;> rfl

theorem startsWith_withReturns {lead : List Char} (h : NoTerminator lead) (cs : List Char) :
    startsWith lead (withReturns cs) = startsWith lead cs := by
  rw [startsWith, after?_withReturns h, Option.isSome_map]
  rfl

end PolyLex.Text
