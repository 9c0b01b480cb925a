import PolyLex.Text.Trim

/-!
# Physical lines of what is left of a text

A line feed stands only at the end of a physical line (`not_mem_take_firstLine`), and what is left
of a text after some characters of its first line has the rest of that line as its own first line
(`lines_drop`). A line that is put before a text is a line of the whole (`lines_line`), and so are
the lines of a text that ends in a line feed (`lines_append`).
-/

namespace PolyLex.Text

/-- The text holds neither a line feed nor a carriage return. -/
def NoTerminator (cs : List Char) : Prop := ∀ c ∈ cs, c ≠ '\n' ∧ c ≠ '\r'

instance (cs : List Char) : Decidable (NoTerminator cs) :=
  decidable_of_iff (cs.all (fun c => c ≠ '\n' ∧ c ≠ '\r')) (by simp [NoTerminator])

theorem NoTerminator.not_mem {cs : List Char} (h : NoTerminator cs) : '\n' ∉ cs :=
  fun hmem => (h _ hmem).1 rfl

/-- The lines of a text are its first line and the lines of the rest. -/
theorem lines_of_ne_nil {cs : List Char} (h : cs ≠ []) :
    lines cs = (firstLine cs).1 :: lines (firstLine cs).2 := by
  cases cs with
  | nil => exact absurd rfl h
  | cons c cs => rw [lines]

theorem lines_nil : lines [] = [] := by
  rw [lines]

theorem firstLine_ne_nil {cs : List Char} (h : cs ≠ []) : (firstLine cs).1 ≠ [] := by
  cases cs with
  | nil => exact absurd rfl h
  | cons c cs =>
    rw [firstLine]
    split <;> exact List.cons_ne_nil _ _

theorem firstLine_isPrefix (cs : List Char) : (firstLine cs).1 <+: cs :=
  ⟨(firstLine cs).2, firstLine_append cs⟩

theorem drop_length_firstLine (cs : List Char) :
    cs.drop (firstLine cs).1.length = (firstLine cs).2 := by
  have h : ((firstLine cs).1 ++ (firstLine cs).2).drop (firstLine cs).1.length = (firstLine cs).2 :=
    List.drop_left
  rwa [firstLine_append] at h

/-- The first line ends with its line feed, or else it is all there is. -/
theorem firstLine_cases (cs : List Char) :
    (firstLine cs).1.getLast? = some '\n' ∨ (firstLine cs).2 = [] ∧ '\n' ∉ (firstLine cs).1 := by
  induction cs with
  | nil => exact .inr ⟨rfl, by simp [firstLine]⟩
  | cons c cs ih =>
    rw [firstLine]
    split
    · exact .inl rfl
    · next hc =>
      rcases ih with h | ⟨hnil, hmem⟩
      · left
        show (c :: (firstLine cs).1).getLast? = _
        rw [List.getLast?_cons, h]
        rfl
      · right
        refine ⟨hnil, ?_⟩
        rintro (_ | ⟨_, hmem'⟩)
        · exact hc rfl
        · exact hmem hmem'

/-- A line feed stands nowhere but at the end of a line. -/
theorem not_mem_take_firstLine {cs : List Char} : ∀ {k : Nat}, k < (firstLine cs).1.length →
    '\n' ∉ (firstLine cs).1.take k := by
  induction cs with
  | nil => exact fun hk => absurd hk (Nat.not_lt_zero _)
  | cons c cs ih =>
    intro k hk
    rw [firstLine] at hk ⊢
    split at hk
    · obtain rfl : k = 0 := Nat.lt_one_iff.mp hk
      simp
    · next hc =>
      rw [if_neg hc]
      cases k with
      | zero => simp
      | succ k =>
        show '\n' ∉ c :: (firstLine cs).1.take k
        rintro (_ | ⟨_, hmem⟩)
        · exact hc rfl
        · exact ih (Nat.lt_of_succ_lt_succ hk) hmem

/-- Behind some characters of the first line, the rest of it is the first line. -/
theorem firstLine_drop {cs : List Char} : ∀ {k : Nat}, k < (firstLine cs).1.length →
    firstLine (cs.drop k) = ((firstLine cs).1.drop k, (firstLine cs).2) := by
  induction cs with
  | nil => exact fun hk => absurd hk (Nat.not_lt_zero _)
  | cons c cs ih =>
    intro k hk
    cases k with
    | zero => rfl
    | succ k =>
      rw [firstLine] at hk ⊢
      split at hk
      · exact absurd (Nat.lt_of_succ_lt_succ hk) (Nat.not_lt_zero _)
      · next hc =>
        rw [if_neg hc]
        exact ih (Nat.lt_of_succ_lt_succ hk)

/-- The lines of what is left behind some characters of the first line. -/
theorem lines_drop {cs : List Char} {k : Nat} (hk : k < (firstLine cs).1.length) :
    lines (cs.drop k) = (firstLine cs).1.drop k :: lines (firstLine cs).2 := by
  have hdrop := firstLine_drop hk
  have hne : cs.drop k ≠ [] := by
    intro hnil
    have hlen := congrArg (fun x => x.1.length) hdrop
    rw [hnil, firstLine, List.length_nil, List.length_drop] at hlen
    omega
  rw [lines_of_ne_nil hne, hdrop]

/-- What is put before a text without line feeds lengthens its first line. -/
theorem firstLine_append_of_not_mem {lead : List Char} (h : '\n' ∉ lead) (cs : List Char) :
    firstLine (lead ++ cs) = (lead ++ (firstLine cs).1, (firstLine cs).2) := by
  induction lead with
  | nil => rfl
  | cons c lead ih =>
    rw [List.mem_cons, not_or] at h
    rw [List.cons_append, firstLine, if_neg (Ne.symm h.1), ih h.2]
    rfl

/-- A mark without line feeds that starts a text starts its first line. -/
theorem isPrefix_firstLine {mark cs : List Char} (h : '\n' ∉ mark) (hmark : mark <+: cs) :
    mark <+: (firstLine cs).1 := by
  obtain ⟨more, rfl⟩ := hmark
  rw [firstLine_append_of_not_mem h]
  exact List.prefix_append _ _

/-- A first line is the first line before whatever comes next, if it has its line feed. -/
theorem firstLine_line {cs more : List Char}
    (h : (firstLine cs).1.getLast? = some '\n' ∨ more = []) :
    firstLine ((firstLine cs).1 ++ more) = ((firstLine cs).1, more) := by
  induction cs with
  | nil =>
    rcases h with h | rfl
    · cases h
    · rfl
  | cons c cs ih =>
    rw [firstLine] at h ⊢
    split at h
    · next hc =>
      rw [if_pos hc]
      rfl
    · next hc =>
      -- The rest of the line ends as the line does, or it would have no line feed at all.
      have hcs : (firstLine cs).1.getLast? = some '\n' ∨ more = [] := by
        refine h.imp_left fun hlast => ?_
        change (c :: (firstLine cs).1).getLast? = some '\n' at hlast
        rw [List.getLast?_cons, Option.some.injEq] at hlast
        cases hcs : (firstLine cs).1.getLast? with
        | none =>
          rw [hcs] at hlast
          exact absurd hlast hc
        | some d =>
          rw [hcs] at hlast
          exact congrArg some hlast
      rw [if_neg hc]
      show firstLine (c :: ((firstLine cs).1 ++ more)) = _
      rw [firstLine, if_neg hc, ih hcs]

/-- A line that ends, or the last one, is a line whatever stands behind it. -/
theorem lines_line {cs more : List Char} (hne : cs ≠ [])
    (h : (firstLine cs).1.getLast? = some '\n' ∨ more = []) :
    lines ((firstLine cs).1 ++ more) = (firstLine cs).1 :: lines more := by
  rw [lines_of_ne_nil (List.append_ne_nil_of_left_ne_nil (firstLine_ne_nil hne) _),
    firstLine_line h]

theorem firstLine_of_not_mem {cs : List Char} (h : '\n' ∉ cs) : firstLine cs = (cs, []) := by
  have happend := firstLine_append cs
  rcases firstLine_cases cs with hlast | ⟨hnil, -⟩
  · exact absurd ((firstLine_isPrefix cs).subset (List.mem_of_getLast? hlast)) h
  · rw [hnil, List.append_nil] at happend
    exact Prod.ext happend hnil

/-- A text up to its first line feed is one line. -/
theorem lines_feed {line : List Char} (h : '\n' ∉ line) (rest : List Char) :
    lines (line ++ '\n' :: rest) = (line ++ ['\n']) :: lines rest := by
  have hfeed : firstLine ('\n' :: rest) = (['\n'], rest) := by
    rw [firstLine, if_pos rfl]
  rw [lines_of_ne_nil (by simp), firstLine_append_of_not_mem h, hfeed]

/-- Some characters of a line are one line. -/
theorem firstLine_take_firstLine {cs : List Char} {k : Nat} (hk : k ≤ (firstLine cs).1.length) :
    firstLine ((firstLine cs).1.take k) = ((firstLine cs).1.take k, []) := by
  rcases Nat.lt_or_eq_of_le hk with hlt | rfl
  · exact firstLine_of_not_mem (not_mem_take_firstLine hlt)
  · have hline : firstLine ((firstLine cs).1 ++ []) = ((firstLine cs).1, []) :=
      firstLine_line (.inr rfl)
    rwa [List.append_nil, ← List.take_length (l := (firstLine cs).1)] at hline

theorem lines_take_firstLine {cs : List Char} {k : Nat} (hpos : 0 < k)
    (hk : k ≤ (firstLine cs).1.length) :
    lines ((firstLine cs).1.take k) = [(firstLine cs).1.take k] := by
  have hne : (firstLine cs).1.take k ≠ [] := by
    rw [← List.length_pos_iff, List.length_take]
    omega
  rw [lines_of_ne_nil hne, firstLine_take_firstLine hk, lines_nil]

/-- Behind a line feed a new line starts, so the lines of two texts are those of the one and those
of the other. -/
theorem lines_append {a : List Char} (h : a = [] ∨ a.getLast? = some '\n') (b : List Char) :
    lines (a ++ b) = lines a ++ lines b := by
  fun_induction lines a with
  | case1 => rfl
  | case2 c cs ih =>
    have hlast : (c :: cs).getLast? = some '\n' := by simpa using h
    have happend := firstLine_append (c :: cs)
    have hne := List.cons_ne_nil c cs
    generalize c :: cs = a at *
    -- The lines below end in a line feed as the text does, unless there are none.
    have hbelow : (firstLine a).2 = [] ∨ (firstLine a).2.getLast? = some '\n' := by
      rw [← happend, List.getLast?_append] at hlast
      cases hnil : (firstLine a).2.getLast? with
      | none => exact .inl (List.getLast?_eq_none_iff.mp hnil)
      | some d =>
        rw [hnil] at hlast
        exact .inr hlast
    have hfirst : (firstLine a).1.getLast? = some '\n' := by
      rcases firstLine_cases a with hfeed | ⟨hnil, -⟩
      · exact hfeed
      · rw [hnil, List.append_nil] at happend
        rw [happend]
        exact hlast
    have hsplit : a ++ b = (firstLine a).1 ++ ((firstLine a).2 ++ b) := by
      rw [← List.append_assoc, happend]
    rw [hsplit, lines_line hne (.inl hfirst), ih hbelow, List.cons_append]

end PolyLex.Text
