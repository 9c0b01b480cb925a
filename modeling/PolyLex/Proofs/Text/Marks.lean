/-!
# Marks inside a text

A mark that lies somewhere in a text cannot reach over a character that it does not hold: it stands
before that character or behind it (`infix_append_cons`).
-/

namespace PolyLex.Text

variable {mark front back : List Char} {c : Char}

/-- A mark without the character stops before it. -/
theorem isPrefix_of_not_mem {more : List Char} (hc : c ∉ mark)
    (h : mark <+: front ++ c :: more) : mark <+: front := by
  have hfront : front ++ [c] <+: front ++ c :: more := ⟨more, by simp⟩
  rcases List.prefix_or_prefix_of_prefix h hfront with hle | hle
  · rcases List.prefix_concat_iff.mp hle with rfl | hle
    · exact absurd (by simp) hc
    · exact hle
  · exact absurd (hle.subset (by simp)) hc

/-- A mark lies on one side of a character that it does not hold. -/
theorem infix_append_cons (hc : c ∉ mark) (h : mark <:+: front ++ c :: back) :
    mark <:+: front ∨ mark <:+: back := by
  have hbefore : ∀ {lead : List Char}, mark <+: lead ++ c :: back → mark <:+: lead :=
    fun hprefix => (isPrefix_of_not_mem hc hprefix).isInfix
  induction front with
  | nil =>
    rcases List.infix_cons_iff.mp h with hprefix | hinfix
    · exact .inl (hbefore hprefix)
    · exact .inr hinfix
  | cons d front ih =>
    rcases List.infix_cons_iff.mp h with hprefix | hinfix
    · exact .inl (hbefore hprefix)
    · exact (ih hinfix).imp_left List.infix_cons

/-- A mark lies behind a text that lacks its first character. -/
theorem infix_of_not_mem_left (hc : c ∉ front) (h : c :: mark <:+: front ++ back) :
    c :: mark <:+: back := by
  induction front with
  | nil => exact h
  | cons d front ih =>
    rw [List.mem_cons, not_or] at hc
    rcases List.infix_cons_iff.mp h with hprefix | hinfix
    · exact absurd (List.cons_prefix_cons.mp hprefix).1 hc.1
    · exact ih hc.2 hinfix

end PolyLex.Text
