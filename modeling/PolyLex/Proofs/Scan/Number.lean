import PolyLex.Scan.Category

/-!
# Numbers by their grammar

`IsNumber` is the grammar of numbers, apart from how they are found:

    0x or 0X, hexadecimal digits | digits | digits . digits | . digits

`numberLength` finds the longest opening of a text that the grammar admits
(`isNumber_take_numberLength`, `length_le_numberLength`).
-/

namespace PolyLex.Scan

open Text Category

/-- The text as a whole is a number. -/
inductive IsNumber : List Char → Prop
  | hex {x ds} : x = 'x' ∨ x = 'X' → ds ≠ [] → (∀ d ∈ ds, isHexDigit d = true) →
      IsNumber ('0' :: x :: ds)
  | whole {ds} : ds ≠ [] → (∀ d ∈ ds, isDigit d = true) → IsNumber ds
  | decimal {ds fs} : ds ≠ [] → (∀ d ∈ ds, isDigit d = true) → fs ≠ [] →
      (∀ d ∈ fs, isDigit d = true) → IsNumber (ds ++ '.' :: fs)
  | fraction {fs} : fs ≠ [] → (∀ d ∈ fs, isDigit d = true) → IsNumber ('.' :: fs)

theorem IsNumber.ne_nil {w : List Char} (h : IsNumber w) : w ≠ [] := by
  cases h with
  | hex => exact List.cons_ne_nil _ _
  | whole hne => exact hne
  | decimal hne => exact List.append_ne_nil_of_left_ne_nil hne _
  | fraction => exact List.cons_ne_nil _ _

/-! ### Runs -/

theorem of_mem_takeWhile {q : Char → Bool} {cs : List Char} : ∀ c ∈ cs.takeWhile q, q c = true := by
  intro c hc
  exact List.all_eq_true.mp List.all_takeWhile c hc

/-- A run goes on over all that is in its class. -/
theorem runLength_append {q : Char → Bool} {ds : List Char} (h : ∀ d ∈ ds, q d = true)
    (more : List Char) : runLength q (ds ++ more) = ds.length + runLength q more := by
  rw [runLength, List.takeWhile_append_of_pos h, List.length_append]
  rfl

theorem runLength_cons_of_neg {q : Char → Bool} {c : Char} (h : q c = false) (cs : List Char) :
    runLength q (c :: cs) = 0 := by
  rw [runLength, List.takeWhile_cons, h]
  rfl

theorem takeWhile_ne_nil {q : Char → Bool} {cs : List Char} (h : runLength q cs ≠ 0) :
    cs.takeWhile q ≠ [] := by
  intro hnil
  rw [runLength, hnil] at h
  exact h rfl

theorem isDigit_point : isDigit '.' = false := by decide

theorem isDigit_hexMark {x : Char} (h : x = 'x' ∨ x = 'X') : isDigit x = false := by
  rcases h with rfl | rfl <;> decide

/-! ### The two parts of a number -/

theorem fractionLength_point (more : List Char) : fractionLength ('.' :: more) =
    if runLength isDigit more = 0 then 0 else runLength isDigit more + 1 := rfl

theorem fractionLength_of_ne {cs : List Char} (h : ∀ more, cs ≠ '.' :: more) :
    fractionLength cs = 0 := by
  rw [fractionLength]
  exact h

/-- A fraction that is there is a point and digits. -/
theorem exists_of_fractionLength {cs : List Char} (h : fractionLength cs ≠ 0) :
    ∃ fs, fs ≠ [] ∧ (∀ d ∈ fs, isDigit d = true) ∧ cs.take (fractionLength cs) = '.' :: fs := by
  by_cases hcs : ∃ more, cs = '.' :: more
  · obtain ⟨more, rfl⟩ := hcs
    rw [fractionLength_point] at h ⊢
    split at h
    · exact absurd rfl h
    · next hrun =>
      refine ⟨more.takeWhile isDigit, takeWhile_ne_nil hrun, of_mem_takeWhile, ?_⟩
      rw [if_neg hrun, List.take_succ_cons, take_runLength]
  · exact absurd (fractionLength_of_ne fun more hmore => hcs ⟨more, hmore⟩) h

/-- A hexadecimal number that is there is its mark and digits. -/
theorem exists_of_hexLength {cs : List Char} (h : hexLength cs ≠ 0) :
    ∃ x more, cs = '0' :: x :: more ∧ (x = 'x' ∨ x = 'X') ∧ runLength isHexDigit more ≠ 0 ∧
      hexLength cs = runLength isHexDigit more + 2 := by
  unfold hexLength at h ⊢
  split at h
  · next x more =>
    by_cases hx : x = 'x' ∨ x = 'X'
    · simp only [if_pos hx] at h ⊢
      split at h
      · exact absurd rfl h
      · next hrun => exact ⟨x, more, rfl, hx, hrun, if_neg hrun⟩
    · simp only [if_neg hx] at h
      exact absurd rfl h
  · exact absurd rfl h

theorem runLength_le (q : Char → Bool) (cs : List Char) : runLength q cs ≤ cs.length :=
  (List.takeWhile_prefix q).length_le

theorem fractionLength_le (cs : List Char) : fractionLength cs ≤ cs.length := by
  by_cases hcs : ∃ more, cs = '.' :: more
  · obtain ⟨more, rfl⟩ := hcs
    have hrun := runLength_le isDigit more
    rw [fractionLength_point, List.length_cons]
    split <;> omega
  · rw [fractionLength_of_ne fun more hmore => hcs ⟨more, hmore⟩]
    exact Nat.zero_le _

theorem numberLength_of_hex {rest : List Char} (h : hexLength rest ≠ 0) :
    numberLength rest = hexLength rest := by
  simp only [numberLength, if_neg h]

/-- Any other number is digits and perhaps a fraction. -/
theorem numberLength_of_not_hex {rest : List Char} (h : hexLength rest = 0) : numberLength rest =
    runLength isDigit rest + fractionLength (rest.drop (runLength isDigit rest)) := by
  simp only [numberLength, if_pos h]

theorem numberLength_le (rest : List Char) : numberLength rest ≤ rest.length := by
  by_cases hhex : hexLength rest = 0
  · have hfraction := fractionLength_le (rest.drop (runLength isDigit rest))
    have hrun := runLength_le isDigit rest
    rw [List.length_drop] at hfraction
    rw [numberLength_of_not_hex hhex]
    omega
  · obtain ⟨x, more, rfl, -, -, hlen⟩ := exists_of_hexLength hhex
    have hrun := runLength_le isHexDigit more
    rw [numberLength_of_hex hhex, hlen, List.length_cons, List.length_cons]
    omega

theorem length_take_numberLength (rest : List Char) :
    (rest.take (numberLength rest)).length = numberLength rest := by
  rw [List.length_take]
  exact Nat.min_eq_left (numberLength_le rest)

/-- The digits before the mark of a hexadecimal number are the zero alone. -/
theorem runLength_hex {x : Char} (hx : x = 'x' ∨ x = 'X') (more : List Char) :
    runLength isDigit ('0' :: x :: more) = 1 := by
  have hzero : ∀ d ∈ ['0'], isDigit d = true := by simp [isDigit]
  have h := runLength_append hzero (x :: more)
  rwa [runLength_cons_of_neg (isDigit_hexMark hx)] at h

/-- A number starts with a digit or a point. -/
theorem numberLength_eq_zero {c : Char} (hdigit : isDigit c = false) (hpoint : c ≠ '.')
    (cs : List Char) : numberLength (c :: cs) = 0 := by
  have hhex : hexLength (c :: cs) = 0 := by
    apply Decidable.byContradiction
    intro hhex
    obtain ⟨x, more, heq, -⟩ := exists_of_hexLength hhex
    obtain ⟨rfl, -⟩ := List.cons.inj heq
    revert hdigit
    decide
  rw [numberLength_of_not_hex hhex, runLength_cons_of_neg hdigit, List.drop_zero,
    fractionLength_of_ne]
  intro more hmore
  exact hpoint (List.cons.inj hmore).1

/-! ### The longest number -/

/-- What the reader takes is a number by the grammar. -/
theorem isNumber_take_numberLength {rest : List Char} (h : numberLength rest ≠ 0) :
    IsNumber (rest.take (numberLength rest)) := by
  by_cases hhex : hexLength rest = 0
  · rw [numberLength_of_not_hex hhex] at h ⊢
    rw [List.take_add, take_runLength]
    by_cases hfraction : fractionLength (rest.drop (runLength isDigit rest)) = 0
    · rw [hfraction, List.take_zero, List.append_nil]
      exact .whole (takeWhile_ne_nil (by omega)) of_mem_takeWhile
    · obtain ⟨fs, hne, hfs, htake⟩ := exists_of_fractionLength hfraction
      rw [htake]
      by_cases hwhole : rest.takeWhile isDigit = []
      · rw [hwhole]
        exact .fraction hne hfs
      · exact .decimal hwhole of_mem_takeWhile hne hfs
  · obtain ⟨x, more, rfl, hx, hrun, hlen⟩ := exists_of_hexLength hhex
    rw [numberLength_of_hex hhex, hlen, List.take_succ_cons, List.take_succ_cons, take_runLength]
    exact .hex hx (takeWhile_ne_nil hrun) of_mem_takeWhile

/-- No opening of the text that is a number is longer. -/
theorem length_le_numberLength {rest w : List Char} (hw : w <+: rest) (h : IsNumber w) :
    w.length ≤ numberLength rest := by
  obtain ⟨more, rfl⟩ := hw
  cases h with
  | @hex x ds hx hne hds =>
    have hpos : 0 < ds.length := List.length_pos_iff.mpr hne
    have hrun := runLength_append hds more
    have hlen : hexLength ('0' :: x :: (ds ++ more)) = runLength isHexDigit (ds ++ more) + 2 := by
      simp only [hexLength, if_pos hx]
      exact if_neg (by omega)
    rw [List.cons_append, List.cons_append, numberLength_of_hex (by omega), hlen,
      List.length_cons, List.length_cons]
    omega
  | whole hne hds =>
    have hrun := runLength_append hds more
    by_cases hhex : hexLength (w ++ more) = 0
    · rw [numberLength_of_not_hex hhex]
      omega
    · -- The digits before the mark are the zero alone.
      obtain ⟨x, rest, hrest, hx, -, -⟩ := exists_of_hexLength hhex
      have hone := runLength_hex hx rest
      rw [← hrest] at hone
      rw [numberLength_of_hex hhex]
      omega
  | @decimal ds fs hne hds hfne hfs =>
    have hpos : 0 < fs.length := List.length_pos_iff.mpr hfne
    have hrun := runLength_append hds ('.' :: (fs ++ more))
    rw [runLength_cons_of_neg isDigit_point, Nat.add_zero] at hrun
    have hhex : hexLength (ds ++ '.' :: (fs ++ more)) = 0 := by
      -- Otherwise the mark would be where the point is.
      apply Decidable.byContradiction
      intro hhex
      obtain ⟨x, rest, hrest, hx, -, -⟩ := exists_of_hexLength hhex
      have hone := runLength_hex hx rest
      rw [← hrest, hrun] at hone
      obtain ⟨d, rfl⟩ := List.length_eq_one_iff.mp hone
      simp only [List.singleton_append, List.cons.injEq] at hrest
      rw [← hrest.2.1] at hx
      revert hx
      decide
    rw [List.append_assoc, List.cons_append, numberLength_of_not_hex hhex, hrun, List.drop_left,
      fractionLength_point, runLength_append hfs, if_neg (by omega), List.length_append,
      List.length_cons]
    omega
  | @fraction fs hne hfs =>
    have hpos : 0 < fs.length := List.length_pos_iff.mpr hne
    rw [List.cons_append, numberLength_of_not_hex rfl, runLength_cons_of_neg isDigit_point,
      List.drop_zero, fractionLength_point, runLength_append hfs, if_neg (by omega),
      List.length_cons]
    omega

end PolyLex.Scan
