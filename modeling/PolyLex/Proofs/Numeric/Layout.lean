import PolyLex.Numeric.Layout
import PolyLex.Text.CharClass

/-!
# The characters of numbers

Whatever its layout, a number that is neither infinite nor undefined is written with digits, points,
signs and the mark of an exponent only (`numeral_write`).
-/

namespace PolyLex.Numeric

open Text

/-- May the character stand in a number? -/
def isNumeralPart (c : Char) : Bool := isDigit c || c == '.' || c == '-' || c == 'e'

/-- A text of characters of numbers. -/
def Numeral (s : String) : Prop := ∀ c ∈ s.toList, isNumeralPart c = true

instance (s : String) : Decidable (Numeral s) := List.decidableBAll _ _

/-- Two numerals in a row have no other characters. -/
theorem Numeral.append {s t : String} (hs : Numeral s) (ht : Numeral t) : Numeral (s ++ t) := by
  intro c hc
  rw [String.toList_append, List.mem_append] at hc
  exact hc.elim (hs c) (ht c)

namespace Layout

/-- Digits are parts of numerals. -/
theorem isNumeralPart_of_isDigit {c : Char} (h : isDigit c = true) : isNumeralPart c = true := by
  simp [isNumeralPart, h]

/-- So a natural number is written as a numeral. -/
theorem isNumeralPart_of_mem_toDigits {n : Nat} :
    ∀ c ∈ Nat.toDigits 10 n, isNumeralPart c = true := fun _ hc =>
  isNumeralPart_of_isDigit (Nat.isDigit_of_mem_toDigits (by decide) (by decide) hc)

/-- A text is a numeral if each of its characters may be part of one. -/
theorem numeral_ofList {cs : List Char} (h : ∀ c ∈ cs, isNumeralPart c = true) :
    Numeral (String.ofList cs) := by
  rwa [Numeral, String.toList_ofList]

/-- Zeros that fill up the places before or behind the digits are a numeral. -/
theorem numeral_zeros (n : Nat) : Numeral (zeros n) := by
  refine numeral_ofList fun c hc => ?_
  rw [List.eq_of_mem_replicate hc]
  rfl

/-- A whole number is written as a numeral, be it negative or not. -/
theorem numeral_toString (n : Int) : Numeral (toString n) := by
  have hnat : ∀ m : Nat, Numeral (Nat.repr m) := fun m => numeral_ofList isNumeralPart_of_mem_toDigits
  cases n with
  | ofNat n => exact hnat n
  | negSucc n => exact (by decide : Numeral "-").append (hnat (n + 1))

/-- The form without an exponent is a numeral: a point stands among digits and zeros. -/
theorem numeral_plain (layout : Layout) (d : Decimal) : Numeral (layout.plain d) := by
  have hdigits := isNumeralPart_of_mem_toDigits (n := d.digits)
  have hall := numeral_ofList hdigits
  have hpoint : Numeral (if layout.wholePoint then ".0" else "") := by
    split <;> decide
  unfold plain
  dsimp only
  split
  · exact (hall.append (numeral_zeros _)).append hpoint
  · split
    · refine Numeral.append (Numeral.append (numeral_ofList fun c hc => ?_) (by decide))
        (numeral_ofList fun c hc => ?_)
      · exact hdigits c (List.mem_of_mem_take hc)
      · exact hdigits c (List.mem_of_mem_drop hc)
    · exact ((by decide : Numeral "0.").append (numeral_zeros _)).append hall

/-- The form with an exponent is a numeral: it has one letter, which stands behind digits. -/
theorem numeral_withExponent (d : Decimal) (order : Int) : Numeral (withExponent d order) := by
  have hdigits := isNumeralPart_of_mem_toDigits (n := d.digits)
  have hfirst := numeral_ofList fun c hc => hdigits c (List.mem_of_mem_take (i := 1) hc)
  have hrest := numeral_ofList fun c hc => hdigits c (List.mem_of_mem_drop (i := 1) hc)
  have hplaces : Numeral (if ((Nat.toDigits 10 d.digits).drop 1).isEmpty then "" else
      "." ++ String.ofList ((Nat.toDigits 10 d.digits).drop 1)) := by
    split
    · decide
    · exact (by decide : Numeral ".").append hrest
  exact ((hfirst.append hplaces).append (by decide)).append (numeral_toString order)

/-- A finite number is a numeral in every layout. Only the other values are written in words. -/
theorem numeral_write (layout : Layout) (p : Precision) (negative : Bool) (m : Nat) (e : Int) :
    Numeral (layout.write p (.finite negative m e)) := by
  have hsign : Numeral (if negative then "-" else "") := by
    split <;> decide
  refine Numeral.append hsign ?_
  split
  · exact numeral_plain layout _
  · unfold decimal
    dsimp only
    split
    · exact numeral_plain layout _
    · exact numeral_withExponent _ _

end Layout

end PolyLex.Numeric
