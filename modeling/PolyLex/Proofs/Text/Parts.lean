import PolyLex.Text.Trim

/-!
# Parts between marks

What `splitBy` makes of a text with a mark in it (`splitBy_mark`), of one without (it is the only
part, `splitBy_eq_singleton`), and of one that ends in marks: they are empty parts at its end
(`splitBy_append_marks`). No part holds a mark.
-/

namespace PolyLex.Text

variable {p : Char → Bool}

theorem splitBy_ne_nil (p : Char → Bool) (cs : List Char) : splitBy p cs ≠ [] := by
  cases cs with
  | nil => exact List.cons_ne_nil _ _
  | cons c cs =>
    unfold splitBy
    split
    · exact List.cons_ne_nil _ _
    · split <;> exact List.cons_ne_nil _ _

/-- Without a mark there is one part. -/
theorem splitBy_eq_singleton {cs : List Char} (h : ∀ c ∈ cs, p c = false) :
    splitBy p cs = [cs] := by
  induction cs with
  | nil => rfl
  | cons c cs ih =>
    rw [List.forall_mem_cons] at h
    rw [splitBy, h.1, ih h.2]
    rfl

/-- There is a last part. -/
theorem exists_splitBy_concat (p : Char → Bool) (cs : List Char) :
    ∃ parts part, splitBy p cs = parts ++ [part] :=
  ⟨_, _, (List.dropLast_concat_getLast (splitBy_ne_nil p cs)).symm⟩

/-- The parts on the two sides of a mark. -/
theorem splitBy_mark {c : Char} (hc : p c = true) (front back : List Char) :
    splitBy p (front ++ c :: back) = splitBy p front ++ splitBy p back := by
  induction front with
  | nil => simp [splitBy, hc]
  | cons d front ih =>
    rw [List.cons_append, splitBy, splitBy, ih]
    split
    · rfl
    · obtain ⟨part, parts, hparts⟩ := List.exists_cons_of_ne_nil (splitBy_ne_nil p front)
      rw [hparts]
      rfl

/-- Marks at the end of a text are empty parts at the end of its parts. -/
theorem splitBy_append_marks {marks : List Char} (h : ∀ c ∈ marks, p c = true) :
    ∀ cs, splitBy p (cs ++ marks) = splitBy p cs ++ List.replicate marks.length [] := by
  induction marks with
  | nil => exact fun cs => by rw [List.append_nil]; exact (List.append_nil _).symm
  | cons c marks ih =>
    intro cs
    obtain ⟨hc, hmarks⟩ := List.forall_mem_cons.mp h
    have hrest := ih hmarks []
    rw [List.nil_append] at hrest
    rw [splitBy_mark hc, hrest]
    rfl

/-- No part holds a mark. -/
theorem not_mark_of_mem_splitBy {part cs : List Char} (hpart : part ∈ splitBy p cs) :
    ∀ c ∈ part, p c = false := by
  induction cs generalizing part with
  | nil =>
    intro c hc
    rw [List.mem_singleton.mp hpart] at hc
    cases hc
  | cons d cs ih =>
    unfold splitBy at hpart
    split at hpart
    · rcases List.mem_cons.mp hpart with rfl | hpart
      · exact fun c hc => absurd hc List.not_mem_nil
      · exact ih hpart
    -- The character goes to the first part of the rest.
    · next hd =>
      obtain ⟨first, rest, hparts⟩ := List.exists_cons_of_ne_nil (splitBy_ne_nil p cs)
      rw [hparts] at hpart ih
      rcases List.mem_cons.mp hpart with rfl | hpart
      · intro c hc
        rcases List.mem_cons.mp hc with rfl | hc
        · exact Bool.eq_false_iff.mpr hd
        · exact ih List.mem_cons_self c hc
      · exact ih (List.mem_cons_of_mem _ hpart)

end PolyLex.Text
