import Mathlib.Tactic.SplitIfs
import PolyLex.Cli.Display
import PolyLex.Proofs.Text.Lines

/-!
# Control characters

Lines that are printed one below the other stay lines as long as no text on them brings control
characters along. What is written by the program itself brings none: neither numbers nor padding,
and a quoted text has its own control characters written out (`controls_quote`). So the control
characters of a line are those of the texts that stand in it as they are.

Lines without control characters are the physical lines of what is printed (`lines_lines`).
-/

namespace PolyLex.Text

/-- The control characters of ASCII: those below the space, and delete. -/
def isControl (c : Char) : Bool := c.toNat < 0x20 || c.toNat == 0x7F

/-- The control characters of a text, in their order. -/
def controls (s : String) : List Char := s.toList.filter isControl

@[simp] theorem controls_append (s t : String) : controls (s ++ t) = controls s ++ controls t := by
  rw [controls, String.toList_append, List.filter_append]
  rfl

theorem controls_ofList (cs : List Char) : controls (String.ofList cs) = cs.filter isControl := by
  rw [controls, String.toList_ofList]

theorem controls_ofList_eq_nil {cs : List Char} (h : ∀ c ∈ cs, isControl c = false) :
    controls (String.ofList cs) = [] := by
  rw [controls_ofList, List.filter_eq_nil_iff]
  intro c hc
  rw [h c hc]
  exact Bool.false_ne_true

/-- A text without control characters has no line feed. -/
theorem not_mem_of_controls {s : String} (h : controls s = []) : '\n' ∉ s.toList := by
  intro hmem
  exact absurd (by decide) (List.filter_eq_nil_iff.mp h '\n' hmem)

/-! ### Padding and numbers -/

@[simp] theorem controls_space : controls " " = [] := by decide

theorem controls_replicate (n : Nat) : controls (String.ofList (List.replicate n ' ')) = [] := by
  apply controls_ofList_eq_nil
  intro c hc
  rw [List.eq_of_mem_replicate hc]
  decide

/-- Padding adds blanks only, so no control character. -/
@[simp] theorem controls_padRight (width : Nat) (s : String) :
    controls (padRight width s) = controls s := by
  rw [padRight, controls_append, controls_replicate, List.append_nil]

@[simp] theorem controls_padLeft (width : Nat) (s : String) :
    controls (padLeft width s) = controls s := by
  rw [padLeft, controls_append, controls_replicate, List.nil_append]

/-- A number has no control characters, to whatever base it is written. -/
theorem isControl_of_mem_toDigits {base : Nat} (hlow : 1 < base) (hhigh : base ≤ 16) {n : Nat} :
    ∀ c ∈ Nat.toDigits base n, isControl c = false := by
  have hdigit : ∀ d < 16, isControl d.digitChar = false := by decide
  induction n using Nat.strongRecOn with
  | _ n ih =>
    intro c hc
    rw [Nat.toDigits_eq_if hlow] at hc
    split at hc
    · next hlt =>
      rw [List.mem_singleton.mp hc]
      exact hdigit n (Nat.lt_of_lt_of_le hlt hhigh)
    · rcases List.mem_append.mp hc with hfront | hlast
      · exact ih (n / base) (Nat.div_lt_self (by omega) hlow) c hfront
      · rw [List.mem_singleton.mp hlast]
        exact hdigit _ (Nat.lt_of_lt_of_le (Nat.mod_lt n (by omega)) hhigh)

/-- A number is printed without control characters. -/
@[simp] theorem controls_repr (n : Nat) : controls n.repr = [] :=
  controls_ofList_eq_nil (isControl_of_mem_toDigits (by decide) (by decide))

/-! ### Quoted text -/

/-- Control characters are the first two intervals of those that are not printed. -/
theorem isPrintable_of_isControl {c : Char} (h : isControl c = true) : isPrintable c = false := by
  obtain ⟨more, htable⟩ : ∃ more, unprintableRanges = (0x0, 0x1F) :: (0x7F, 0xA0) :: more :=
    ⟨_, rfl⟩
  simp only [isControl, Bool.or_eq_true, decide_eq_true_eq, beq_iff_eq] at h
  rw [isPrintable, htable]
  rcases h with hlow | hdelete
  · have hle : c.toNat ≤ 0x1F := by omega
    simp [inRanges, hle]
  · simp [inRanges, hdelete]

/-- A character is written by a letter behind a backslash, as it stands if it is printable, or by
its number. -/
theorem quoteChar_cases (c : Char) :
    (∃ letter, isControl letter = false ∧ quoteChar c = ['\\', letter]) ∨
    (isPrintable c = true ∧ quoteChar c = [c]) ∨
    quoteChar c = ['\\', 'u', '\x7b'] ++ hexDigits c.toNat ++ ['\x7d'] := by
  unfold quoteChar
  split_ifs with _ _ _ _ _ _ hplain
  · exact .inl ⟨'0', by decide, rfl⟩
  · exact .inl ⟨'t', by decide, rfl⟩
  · exact .inl ⟨'r', by decide, rfl⟩
  · exact .inl ⟨'n', by decide, rfl⟩
  · exact .inl ⟨'\\', by decide, rfl⟩
  · exact .inl ⟨'"', by decide, rfl⟩
  · exact .inr (.inl ⟨(Bool.and_eq_true_iff.mp hplain).2, rfl⟩)
  · exact .inr (.inr rfl)

/-- What is written for a character has no control characters, whatever the character is. -/
theorem isControl_of_mem_quoteChar (c : Char) : ∀ d ∈ quoteChar c, isControl d = false := by
  have hslash : isControl '\\' = false := by decide
  rcases quoteChar_cases c with ⟨letter, hletter, heq⟩ | ⟨hprintable, heq⟩ | heq
  · rw [heq, List.forall_mem_cons, List.forall_mem_singleton]
    exact ⟨hslash, hletter⟩
  · rw [heq, List.forall_mem_singleton, ← Bool.not_eq_true]
    intro hcontrol
    rw [isPrintable_of_isControl hcontrol] at hprintable
    cases hprintable
  · have hdigits : ∀ d ∈ hexDigits c.toNat, isControl d = false :=
      isControl_of_mem_toDigits (by decide) (by decide)
    rw [heq, List.forall_mem_append, List.forall_mem_append, List.forall_mem_cons,
      List.forall_mem_cons, List.forall_mem_singleton, List.forall_mem_singleton]
    exact ⟨⟨⟨hslash, by decide, by decide⟩, hdigits⟩, by decide⟩

/-- In a quoted text every control character is escaped. -/
@[simp] theorem controls_quote (s : String) : controls (quote s) = [] := by
  have hmark : isControl '"' = false := by decide
  apply controls_ofList_eq_nil
  rw [List.forall_mem_append, List.forall_mem_cons, List.forall_mem_singleton]
  refine ⟨⟨hmark, fun d hd => ?_⟩, hmark⟩
  obtain ⟨c, -, hc⟩ := List.mem_flatMap.mp hd
  exact isControl_of_mem_quoteChar c d hc

/-! ### Printed lines -/

/-- Lines that hold no line feed are printed each on a physical line of its own. -/
theorem lines_lines : ∀ {ls : List String}, (∀ s ∈ ls, '\n' ∉ s.toList) →
    lines (Cli.lines ls).toList = ls.map fun s => s.toList ++ ['\n']
  | [], _ => lines_nil
  | s :: ls, h => by
    obtain ⟨hs, hls⟩ := List.forall_mem_cons.mp h
    have hprinted : (Cli.lines (s :: ls)).toList = s.toList ++ '\n' :: (Cli.lines ls).toList := by
      simp [Cli.lines, String.toList_join]
    rw [hprinted, lines_feed hs, lines_lines hls, List.map_cons]

end PolyLex.Text
