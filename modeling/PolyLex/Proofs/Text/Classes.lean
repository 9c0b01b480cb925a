import PolyLex.Text.CharClass

/-!
# Character classes apart

Classes of characters are tables of intervals. Two tables without a common number are told apart by
their ends alone (`RangesApart`), so that no character is both a digit and a letter, or a letter and
white space.
-/

namespace PolyLex.Text

/-- Characters are checked in their list; there are too many to try them all. -/
theorem forall_mem_of_all {P : Char → Prop} [DecidablePred P] {cs : List Char}
    (h : cs.all (fun c => decide (P c)) = true) : ∀ c ∈ cs, P c := by
  simpa using h

/-- Every interval of one table ends before or starts behind every interval of the other. -/
def RangesApart (a b : List (Nat × Nat)) : Prop := ∀ r ∈ a, ∀ s ∈ b, r.2 < s.1 ∨ s.2 < r.1

instance (a b : List (Nat × Nat)) : Decidable (RangesApart a b) :=
  inferInstanceAs (Decidable (∀ r ∈ a, ∀ s ∈ b, _))

/-- Of two tables of ranges that lie apart, no code point is in both. -/
theorem RangesApart.inRanges_eq_false {a b : List (Nat × Nat)} (h : RangesApart a b) {n : Nat}
    (hn : inRanges a n = true) : inRanges b n = false := by
  rw [Bool.eq_false_iff]
  intro hb
  obtain ⟨r, hr, hfrom, hto⟩ := exists_of_inRanges hn
  obtain ⟨s, hs, hfrom', hto'⟩ := exists_of_inRanges hb
  rcases h r hr s hs with hlt | hlt
  · omega
  · omega

/-! ### Digits -/

def digitRanges : List (Nat × Nat) := [(0x30, 0x39)]

theorem inRanges_of_isDigit {c : Char} (h : isDigit c = true) :
    inRanges digitRanges c.toNat = true := by
  simp only [isDigit, Bool.and_eq_true, decide_eq_true_eq] at h
  have hlow : 0x30 ≤ c.toNat := UInt32.le_iff_toNat_le.mp h.1
  have hhigh : c.toNat ≤ 0x39 := UInt32.le_iff_toNat_le.mp h.2
  rw [digitRanges, inRanges, if_neg (Nat.not_lt.mpr hlow), decide_eq_true hhigh, Bool.true_or]

theorem isBlank_of_isDigit {c : Char} (h : isDigit c = true) : isBlank c = false := by
  have hapart : RangesApart digitRanges blankRanges := by decide
  exact hapart.inRanges_eq_false (inRanges_of_isDigit h)

theorem isAlphabetic_of_isDigit {c : Char} (h : isDigit c = true) : isAlphabetic c = false := by
  have hapart : RangesApart digitRanges alphabeticRanges := by decide +kernel
  exact hapart.inRanges_eq_false (inRanges_of_isDigit h)

/-- The table of numbers starts with the ten digits. -/
theorem isNumeric_of_isDigit {c : Char} (h : isDigit c = true) : isNumeric c = true := by
  have hdigit := inRanges_of_isDigit h
  unfold digitRanges inRanges at hdigit
  unfold isNumeric numericRanges inRanges
  split at hdigit
  · cases hdigit
  · next hlow =>
    rw [inRanges, Bool.or_false] at hdigit
    rw [if_neg hlow, hdigit, Bool.true_or]

/-! ### White space -/

theorem isAlphabetic_of_isBlank {c : Char} (h : isBlank c = true) : isAlphabetic c = false := by
  have hapart : RangesApart blankRanges alphabeticRanges := by decide +kernel
  exact hapart.inRanges_eq_false h

end PolyLex.Text
