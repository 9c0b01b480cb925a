/-!
# Tables of intervals

A property of characters is kept as the ascending list of the closed intervals of code points that
have it. `inRanges` walks the list and stops at the first interval that starts above the number
looked for, so a test of a character of a low block looks at the head of the table only.
-/

namespace PolyLex.Text

/-- Does `n` lie in one of the closed intervals of an ascending list? -/
def inRanges : List (Nat × Nat) → Nat → Bool
  | [], _ => false
  | (lo, hi) :: rest, n => if n < lo then false else n ≤ hi || inRanges rest n

/-- A number that the table holds lies in one of its intervals. -/
theorem exists_of_inRanges : ∀ {table : List (Nat × Nat)} {n : Nat}, inRanges table n = true →
    ∃ r ∈ table, r.1 ≤ n ∧ n ≤ r.2
  | [], _, h => by simp [inRanges] at h
  | (lo, hi) :: rest, n, h => by
    unfold inRanges at h
    split at h
    · simp at h
    · next hlo =>
      rw [Bool.or_eq_true, decide_eq_true_eq] at h
      rcases h with h | h
      · exact ⟨(lo, hi), List.mem_cons_self, Nat.le_of_not_lt hlo, h⟩
      · obtain ⟨r, hr, hb⟩ := exists_of_inRanges h
        exact ⟨r, List.mem_cons_of_mem _ hr, hb⟩

end PolyLex.Text
