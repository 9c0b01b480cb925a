import Mathlib.Data.List.Basic
import PolyLex.Proofs.Json.Printing
import PolyLex.Proofs.Numeric.Layout
import PolyLex.Proofs.Text.Parts
import PolyLex.Proofs.Toml.Text
import PolyLex.Toml.Reader

/-!
# Plain values come back

A plain value is written on one line and read from there: texts as texts (`readsAs_str`), and all
else as one word, which ends with the line (`readValue_word`). Digits are a whole number and nothing
else: neither a moment nor a number of another base (`word?_toDigits`). What a floating number is
read as is what its text is alone (`readsAs_real`).
-/

namespace PolyLex.Toml

open Json (Value)
open Numeric Text

/-! ### Words -/

/-- A word that ends with its line. -/
theorem readWord_line {cs : List Char} (hcs : ∀ c ∈ cs, isWordPart c = true) {v : Value}
    (hword : word? cs = some v) (rest : List Char) :
    readWord (cs ++ '\n' :: rest) = some (v, '\n' :: rest) := by
  have havoids : Avoids isWordPart ('\n' :: rest) := avoids_cons (by decide) _
  unfold readWord
  rw [takeWhile_append_of_avoids hcs havoids, dropWhile_append_of_avoids hcs havoids]
  simp [hword]

/-- A word is read up to the end of its line. -/
theorem readValue_word {cs : List Char} (hcs : ∀ c ∈ cs, isWordPart c = true) {v : Value}
    (hword : word? cs = some v) (depth : Nat) (rest : List Char) :
    readValue depth (cs ++ '\n' :: rest) = some (v, '\n' :: rest) := by
  cases cs with
  | nil => cases hword
  | cons c cs =>
    have hc : ∀ d, isWordPart d = false → c ≠ d := by
      rintro d hd rfl
      cases hd.symm.trans (hcs _ List.mem_cons_self)
    have hread := readWord_line hcs hword rest
    rw [List.cons_append] at hread ⊢
    rw [readValue.eq_5]
    · rw [if_neg, hread]
      simp [hc '"' (by decide), hc '\'' (by decide)]
    · exact fun _ heq => hc '[' (by decide) (List.cons.inj heq).1
    · exact fun _ heq => hc '\x7b' (by decide) (List.cons.inj heq).1

theorem isWordPart_of_isDigit {c : Char} (h : isDigit c = true) : isWordPart c = true := by
  simp [isWordPart, h]

/-! ### Whole numbers -/

section Digits

variable {cs : List Char} (hcs : ∀ c ∈ cs, isDigit c = true)
include hcs

theorem splitBy_digits {c : Char} (hc : isDigit c = false) : splitBy (· == c) cs = [cs] := by
  refine splitBy_eq_singleton fun d hd => beq_false_of_ne ?_
  rintro rfl
  cases hc.symm.trans (hcs _ hd)

/-- Digits alone are no date and no time. -/
theorem isMoment_digits : isMoment cs = false := by
  have hdate : isDate cs = false := by
    rw [isDate, splitBy_digits hcs (by decide)]
  have htime : isTime cs = false := by
    rw [isTime, splitBy_digits hcs (by decide)]
  rw [isMoment, hdate, htime]
  cases hdrop : cs.drop 10 with
  | nil => rfl
  | cons t time =>
    have ht : isDigit t = true := hcs t (List.mem_of_mem_drop (hdrop ▸ List.mem_cons_self))
    have hne : ∀ d, isDigit d = false → (t == d) = false := by
      intro d hd
      refine beq_false_of_ne ?_
      rintro rfl
      cases hd.symm.trans ht
    simp [hne 'T' (by decide), hne 't' (by decide), hne ' ' (by decide)]

/-- Digits without underscores are read as they stand. -/
theorem digits?_digits (hne : cs ≠ []) : digits? isDigit cs = some cs := by
  have hall : cs.all isDigit = true := List.all_eq_true.mpr hcs
  simp [digits?, splitBy_digits hcs (c := '_') (by decide), hne, hall]

theorem splitSign_digits : splitSign cs = (false, cs) := by
  cases cs with
  | nil => rfl
  | cons c cs =>
    have hc := hcs c List.mem_cons_self
    unfold splitSign
    split
    · next heq => cases heq; cases hc
    · next heq => cases heq; cases hc
    · rfl

/-- Digits without a sign are a decimal number. -/
theorem whole?_digits : whole? cs = (decimal? cs).bind fun ds => bounded? (ofDigits 10 ds) := by
  have hmark : ∀ (d : Char) (more : List Char), isDigit d = false → cs ≠ '0' :: d :: more := by
    rintro d more hd rfl
    cases hd.symm.trans (hcs d (by simp))
  rw [whole?.eq_4, splitSign_digits hcs]
  · simp [signed]
  · exact fun more => hmark 'x' more (by decide)
  · exact fun more => hmark 'o' more (by decide)
  · exact fun more => hmark 'b' more (by decide)

end Digits

theorem ofDigits_toDigits (n : Nat) : ofDigits 10 (Nat.toDigits 10 n) = n := by
  have hvalue : ∀ m, ∀ c ∈ Nat.toDigits 10 n,
      10 * m + (hexValue? c).getD 0 = m * 10 + Json.digitValue c := by
    intro m c hc
    have hdigit : isDigit c = true := Json.isDigit_of_mem_toDigits c hc
    simp [hexValue?, hdigit, Json.digitValue, Nat.mul_comm]
  have h := Json.ofDigits_toDigits n
  rw [Json.NumberText.ofDigits, List.foldl_map] at h
  rw [ofDigits, List.foldl_ext _ _ _ hvalue, h]

/-- A number below 2^63 is read back from its digits. -/
theorem whole?_toDigits {n : Nat} (hn : n < 0x8000000000000000) :
    whole? (Nat.toDigits 10 n) = some (n : Int) := by
  have hdigits : ∀ c ∈ Nat.toDigits 10 n, isDigit c = true := Json.isDigit_of_mem_toDigits
  have hleading : ¬((Nat.toDigits 10 n).head? = some '0' ∧ (Nat.toDigits 10 n).length ≠ 1) := by
    rintro ⟨hhead, hlength⟩
    rcases Nat.eq_zero_or_pos n with rfl | hpos
    · exact hlength rfl
    · exact Json.head?_toDigits_ne hpos hhead
  have hdecimal : decimal? (Nat.toDigits 10 n) = some (Nat.toDigits 10 n) := by
    rw [decimal?, digits?_digits hdigits Nat.toDigits_ne_nil]
    simpa using hleading
  have hbounded : bounded? n = some (n : Int) := if_pos (by omega)
  rw [whole?_digits hdigits, hdecimal, Option.bind_some, ofDigits_toDigits, hbounded]

theorem word?_toDigits {n : Nat} (hn : n < 0x8000000000000000) :
    word? (Nat.toDigits 10 n) = some (.nat n) := by
  have hdigits : ∀ c ∈ Nat.toDigits 10 n, isDigit c = true := Json.isDigit_of_mem_toDigits
  have hne : ∀ (c : Char) (cs : List Char), isDigit c = false → Nat.toDigits 10 n ≠ c :: cs := by
    intro c cs hc heq
    cases hc.symm.trans (hdigits c (heq ▸ List.mem_cons_self))
  rw [word?, if_neg (hne 't' _ (by decide)), if_neg (hne 'f' _ (by decide)), isMoment_digits hdigits,
    if_neg Bool.false_ne_true, whole?_toDigits hn]
  rfl

/-! ### Plain values -/

/-- The value is written on one line, and another one is read from there. -/
def ReadsAs (v w : Value) : Prop := ∃ cs, plainChars? v = some cs ∧
  Avoids isGap cs ∧ ∀ depth rest, readValue depth (cs ++ '\n' :: rest) = some (w, '\n' :: rest)

theorem readsAs_word {v w : Value} {cs : List Char} (hv : plainChars? v = some cs)
    (hcs : ∀ c ∈ cs, isWordPart c = true) (hword : word? cs = some w) : ReadsAs v w := by
  refine ⟨cs, hv, fun c hc => ?_, readValue_word hcs hword⟩
  have hpart := hcs c (List.mem_of_mem_head? hc)
  cases hgap : isGap c with
  | false => rfl
  | true =>
    simp only [isGap, Bool.or_eq_true, beq_iff_eq] at hgap
    rcases hgap with rfl | rfl <;> cases hpart

/-- A truth value is read back. -/
theorem readsAs_bool (b : Bool) : ReadsAs (.bool b) (.bool b) := by
  cases b with
  | false => exact readsAs_word rfl (List.all_eq_true.mp rfl) rfl
  | true => exact readsAs_word rfl (List.all_eq_true.mp rfl) rfl

/-- A number below 2^63 is read back. -/
theorem readsAs_nat {n : Nat} (hn : n < 0x8000000000000000) : ReadsAs (.nat n) (.nat n) :=
  readsAs_word rfl
    (fun c hc => isWordPart_of_isDigit (Json.isDigit_of_mem_toDigits c hc)) (word?_toDigits hn)

/-- A number is what its text is where that stands alone. -/
theorem readsAs_real {p : Precision} {x : Binary} (hnumeral : Numeral (numberLayout.write p x))
    {w : Value} (hword : word? (numberLayout.write p x).toList = some w) : ReadsAs (.real p x) w := by
  refine readsAs_word rfl (fun c hc => ?_) hword
  have hpart := hnumeral c hc
  simp only [isNumeralPart, Bool.or_eq_true, beq_iff_eq] at hpart
  rcases hpart with ((hdigit | rfl) | rfl) | rfl
  · exact isWordPart_of_isDigit hdigit
  all_goals decide

/-- A text starts with a quote of one kind or the other. -/
theorem exists_textChars (s : String) :
    ∃ quote cs, textChars s = quote :: cs ∧ (quote = '"' ∨ quote = '\'') := by
  simp only [textChars]
  cases textForm s.toList with
  | basic => exact ⟨_, _, rfl, .inl rfl⟩
  | literal => exact ⟨_, _, rfl, .inr rfl⟩
  | longBasic => exact ⟨_, _, rfl, .inl rfl⟩
  | longLiteral => exact ⟨_, _, rfl, .inr rfl⟩

/-- Every text is read back. -/
theorem readsAs_str (s : String) : ReadsAs (.str s) (.str s) := by
  obtain ⟨quote, cs, hchars, hquote⟩ := exists_textChars s
  refine ⟨textChars s, rfl, ?_, fun depth rest => ?_⟩
  · rw [hchars]
    rcases hquote with rfl | rfl <;> exact avoids_cons (by decide) _
  · have hrest : Avoids (fun c => c == '"' || c == '\'') ('\n' :: rest) := avoids_cons (by decide) _
    have hread := readText_textChars s hrest
    rw [hchars, List.cons_append] at hread ⊢
    -- A quote opens neither an array nor an inline table.
    rw [readValue.eq_5]
    · rcases hquote with rfl | rfl <;> simp [hread]
    · rintro more heq
      cases heq
      revert hquote
      decide
    · rintro more heq
      cases heq
      revert hquote
      decide

end PolyLex.Toml
