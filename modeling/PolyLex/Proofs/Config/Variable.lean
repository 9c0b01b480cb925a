import PolyLex.Config.Environment
import PolyLex.Proofs.Text.Classes
import PolyLex.Proofs.Text.Ends

/-!
# What the text of a variable is read as

Numbers among the texts of variables, as a grammar: `IsWhole` are those of 64 bits, `IsPointed`
those with a point. A plain word that is neither stands for itself (`word_of_not_isNumber`). So does
a text that is `Bare`, unless it is a number or names a truth value: `value_of_not_isTyped` and
`value_of_isTyped` tell the two apart.
-/

namespace PolyLex.Environment

open Json (Value)
open Numeric Text

/-! ### The grammar -/

/-- A sign, and whether it is minus. -/
inductive IsSign : List Char → Bool → Prop
  | absent : IsSign [] false
  | plus : IsSign ['+'] false
  | minus : IsSign ['-'] true

/-- Digits, and at least one. -/
def IsDigits (cs : List Char) : Prop := cs ≠ [] ∧ ∀ c ∈ cs, isDigit c = true

/-- The number that digits make up. -/
def decimal (cs : List Char) : Nat := cs.foldl (fun n c => 10 * n + (c.toNat - '0'.toNat)) 0

/-- The bound of a whole number, above zero or below. -/
def limit (negative : Bool) : Nat := if negative then 0x8000000000000000 else 0xffffffffffffffff

/-- A whole number of 64 bits, without a sign or with one. -/
inductive IsWhole : List Char → Prop
  | intro {sign ds : List Char} {negative : Bool} : IsSign sign negative → IsDigits ds →
      decimal ds ≤ limit negative → IsWhole (sign ++ ds)

/-- The exponent of a number, which may be absent. -/
inductive IsExponent : List Char → Prop
  | absent : IsExponent []
  | given {mark : Char} {sign ds : List Char} {negative : Bool} : mark = 'e' ∨ mark = 'E' →
      IsSign sign negative → IsDigits ds → IsExponent (mark :: (sign ++ ds))

/-- A number with a point, and with a digit on one side of it at least. -/
inductive IsPointed : List Char → Prop
  | intro {sign whole places exponent : List Char} {negative : Bool} : IsSign sign negative →
      IsDigits (whole ++ places) → IsExponent exponent →
      IsPointed (sign ++ (whole ++ '.' :: (places ++ exponent)))

/-! ### Reading numbers -/

/-- Is the character a sign? -/
def isSignMark (c : Char) : Bool := c == '+' || c == '-'

/-- Does the character start an exponent? -/
def isExponentMark (c : Char) : Bool := c == 'e' || c == 'E'

/-- A text is its sign, perhaps none, and the rest. -/
theorem isSign_splitSign (cs : List Char) :
    ∃ sign, IsSign sign (splitSign cs).1 ∧ cs = sign ++ (splitSign cs).2 := by
  unfold splitSign
  split
  · exact ⟨['-'], .minus, rfl⟩
  · exact ⟨['+'], .plus, rfl⟩
  · exact ⟨[], .absent, rfl⟩

/-- The sign is taken off if the rest has none. -/
theorem splitSign_append {sign rest : List Char} {negative : Bool} (h : IsSign sign negative)
    (hrest : Avoids isSignMark rest) : splitSign (sign ++ rest) = (negative, rest) := by
  cases h with
  | plus => rfl
  | minus => rfl
  | absent =>
    rw [List.nil_append]
    unfold splitSign
    split
    · cases hrest '-' rfl
    · cases hrest '+' rfl
    · rfl

/-- A number is read from digits and from nothing else. -/
theorem digits?_eq_some_iff {cs : List Char} {n : Nat} :
    digits? cs = some n ↔ IsDigits cs ∧ decimal cs = n := by
  unfold digits?
  split
  · next h =>
    simp only [Bool.and_eq_true, Bool.not_eq_true', List.isEmpty_eq_false_iff,
      List.all_eq_true] at h
    rw [Option.some.injEq, decimal, IsDigits, and_iff_right h]
  · next h =>
    simp only [Bool.and_eq_true, Bool.not_eq_true', List.isEmpty_eq_false_iff,
      List.all_eq_true] at h
    simp [IsDigits, h]

/-- A digit is no mark. -/
theorem not_mark_of_isDigit {c : Char} (h : isDigit c = true) :
    isSignMark c = false ∧ isExponentMark c = false ∧ c ≠ '.' := by
  have hne : ∀ d, isDigit d = false → c ≠ d := by
    rintro d hd rfl
    cases hd.symm.trans h
  simp [isSignMark, isExponentMark, hne '+' (by decide), hne '-' (by decide), hne 'e' (by decide),
    hne 'E' (by decide), hne '.' (by decide)]

theorem avoids_sign_of_digits {cs : List Char} (h : ∀ c ∈ cs, isDigit c = true) :
    Avoids isSignMark cs := fun c hc => (not_mark_of_isDigit (h c (List.mem_of_mem_head? hc))).1

/-- The range check of whole numbers. -/
theorem exists_signed_iff (n : Nat) (negative : Bool) :
    (∃ m : Int, (if negative then if n ≤ 0x8000000000000000 then some (-(n : Int)) else none
      else if n < 0x10000000000000000 then some (n : Int) else none) = some m) ↔
      n ≤ limit negative := by
  cases negative <;> simp [limit]
  omega

/-- The whole numbers that can be read are those of the grammar. -/
theorem exists_whole?_iff {cs : List Char} : (∃ n, whole? cs = some n) ↔ IsWhole cs := by
  have hwhole : ∀ cs, whole? cs = (digits? (splitSign cs).2).bind fun n =>
      if (splitSign cs).1 then if n ≤ 0x8000000000000000 then some (-(n : Int)) else none
      else if n < 0x10000000000000000 then some (n : Int) else none := fun _ => rfl
  simp only [hwhole, Option.bind_eq_some_iff, digits?_eq_some_iff]
  constructor
  · rintro ⟨n, _, ⟨hdigits, rfl⟩, h⟩
    obtain ⟨sign, hsign, hcs⟩ := isSign_splitSign cs
    rw [hcs]
    exact .intro hsign hdigits ((exists_signed_iff _ _).mp ⟨n, h⟩)
  · rintro ⟨hsign, hdigits, hlimit⟩
    obtain ⟨n, hn⟩ := (exists_signed_iff _ _).mpr hlimit
    rw [splitSign_append hsign (avoids_sign_of_digits hdigits.2)]
    exact ⟨n, _, ⟨hdigits, rfl⟩, hn⟩

/-- The exponent that stands behind a mantissa. -/
def exponent? : List Char → Option Int
  | [] => some 0
  | _ :: cs => (digits? (splitSign cs).2).map fun n : Nat =>
      if (splitSign cs).1 then -(n : Int) else (n : Int)

/-- The digits of a mantissa as a number, and how many stand behind the point. -/
def mantissa? (cs : List Char) : Option (Nat × Nat) :=
  match cs.dropWhile (· ≠ '.') with
  | [] => none
  | _ :: places => (digits? (cs.takeWhile (· ≠ '.') ++ places)).map fun n => (n, places.length)

/-- A number with a point is its sign, its mantissa and its exponent. -/
theorem real?_eq (cs : List Char) : real? cs =
    (exponent? ((splitSign cs).2.dropWhile (!isExponentMark ·))).bind fun exponent =>
      (mantissa? ((splitSign cs).2.takeWhile (!isExponentMark ·))).map fun m =>
        Binary.ofDecimal .double (splitSign cs).1 m.1 (exponent - m.2) := by
  simp only [real?, mantissa?, isExponentMark]
  generalize (splitSign cs).2.dropWhile (fun c => !(c == 'e' || c == 'E')) = mark
  generalize (splitSign cs).2.takeWhile (fun c => !(c == 'e' || c == 'E')) = mantissa
  cases mark <;> cases mantissa.dropWhile (· ≠ '.') <;>
    simp [exponent?, Option.map_eq_bind, Option.bind_assoc]

theorem IsExponent.head {cs : List Char} (h : IsExponent cs) :
    ∀ c ∈ cs.head?, isExponentMark c = true := by
  cases h with
  | absent => simp
  | given hmark =>
    rintro _ ⟨⟩
    simpa [isExponentMark] using hmark

/-- The exponents that can be read are those of the grammar. -/
theorem exists_exponent?_iff {cs : List Char} (h : ∀ c ∈ cs.head?, isExponentMark c = true) :
    (∃ n, exponent? cs = some n) ↔ IsExponent cs := by
  cases cs with
  | nil => simp [exponent?, IsExponent.absent]
  | cons mark cs =>
    have hmark : mark = 'e' ∨ mark = 'E' := by simpa [isExponentMark] using h mark rfl
    simp only [exponent?, Option.map_eq_some_iff, digits?_eq_some_iff]
    constructor
    · rintro ⟨_, _, ⟨hdigits, rfl⟩, -⟩
      obtain ⟨sign, hsign, hcs⟩ := isSign_splitSign cs
      rw [hcs]
      exact .given hmark hsign hdigits
    · intro hexponent
      cases hexponent with
      | given _ hsign hdigits =>
        rw [splitSign_append hsign (avoids_sign_of_digits hdigits.2)]
        exact ⟨_, _, ⟨hdigits, rfl⟩, rfl⟩

/-- A mantissa has a point and digits on one side of it at least. -/
theorem exists_mantissa?_iff {cs : List Char} : (∃ m, mantissa? cs = some m) ↔
    ∃ whole places, cs = whole ++ '.' :: places ∧ IsDigits (whole ++ places) := by
  constructor
  · rintro ⟨m, h⟩
    unfold mantissa? at h
    split at h
    · cases h
    · next mark places hplaces =>
      obtain ⟨_, hn, -⟩ := Option.map_eq_some_iff.mp h
      obtain ⟨whole, hcs, hwhole, -, hmark⟩ := exists_dropWhile (· ≠ '.') cs
      rw [hplaces] at hcs hmark
      -- What stops the whole digits is the point itself.
      have hpoint : mark = '.' := by simpa using hmark mark rfl
      rw [hwhole] at hn
      exact ⟨whole, places, hpoint ▸ hcs, (digits?_eq_some_iff.mp hn).1⟩
  · rintro ⟨whole, places, rfl, hdigits⟩
    have hwhole : ∀ c ∈ whole, decide (c ≠ '.') = true := fun c hc =>
      decide_eq_true (not_mark_of_isDigit (hdigits.2 c (List.mem_append_left _ hc))).2.2
    have hpoint : Avoids (· ≠ '.') ('.' :: places) := avoids_cons (by decide) _
    rw [mantissa?, takeWhile_append_of_avoids hwhole hpoint,
      dropWhile_append_of_avoids hwhole hpoint]
    exact ⟨_, Option.map_eq_some_iff.mpr ⟨_, digits?_eq_some_iff.mpr ⟨hdigits, rfl⟩, rfl⟩⟩

/-- The pointed numbers that can be read are those of the grammar. -/
theorem exists_real?_iff {cs : List Char} : (∃ x, real? cs = some x) ↔ IsPointed cs := by
  simp only [real?_eq, Option.bind_eq_some_iff, Option.map_eq_some_iff]
  constructor
  · rintro ⟨_, exponent, hexponent, m, hm, -⟩
    obtain ⟨sign, hsign, hcs⟩ := isSign_splitSign cs
    obtain ⟨mantissa, hrest, hmantissa, -, hmark⟩ :=
      exists_dropWhile (!isExponentMark ·) (splitSign cs).2
    rw [hmantissa] at hm
    obtain ⟨whole, places, rfl, hdigits⟩ := exists_mantissa?_iff.mp ⟨m, hm⟩
    have hexponent := (exists_exponent?_iff (by simpa [Avoids] using hmark)).mp ⟨_, hexponent⟩
    rw [hcs, hrest, List.append_assoc, List.cons_append]
    exact .intro hsign hdigits hexponent
  · intro h
    cases h with
    | @intro sign whole places exponent negative hsign hdigits hexponent =>
      -- The sign ends before the mantissa, which begins with a digit or the point.
      have hwhole : Avoids isSignMark (whole ++ '.' :: (places ++ exponent)) :=
        (avoids_sign_of_digits fun c hc => hdigits.2 c (List.mem_append_left _ hc)).append
          fun _ => avoids_cons (by decide) _
      have hmantissa : ∀ c ∈ whole ++ '.' :: places, (!isExponentMark c) = true := by
        intro c hc
        by_cases hpoint : c = '.'
        · subst hpoint
          rfl
        · have hdigit := hdigits.2 c (by simpa [hpoint] using hc)
          simp [(not_mark_of_isDigit hdigit).2.1]
      have hmark := hexponent.head
      -- The mantissa ends at the mark of the exponent.
      have hstop : Avoids (!isExponentMark ·) exponent := fun c hc => by simp [hmark c hc]
      rw [splitSign_append hsign hwhole]
      dsimp only
      rw [← List.cons_append, ← List.append_assoc,
        takeWhile_append_of_avoids hmantissa hstop, dropWhile_append_of_avoids hmantissa hstop]
      obtain ⟨n, hn⟩ := (exists_exponent?_iff hmark).mpr hexponent
      obtain ⟨m, hm⟩ := exists_mantissa?_iff.mpr ⟨whole, places, rfl, hdigits⟩
      exact ⟨_, n, hn, m, hm, rfl⟩

/-! ### Plain words -/

/-- A number, with a point or without. -/
def IsNumber (cs : List Char) : Prop := IsWhole cs ∨ IsPointed cs

theorem word_of_isNumber {cs : List Char} (h : IsNumber cs) :
    (∃ n, word cs = .int n) ∨ ∃ x, word cs = .real .double x := by
  unfold word
  split
  · next x _ => exact .inr ⟨x, rfl⟩
  · next hreal =>
    have hpointed : ¬IsPointed cs := by simp [← exists_real?_iff, hreal]
    obtain ⟨n, hn⟩ := exists_whole?_iff.mpr (h.resolve_right hpointed)
    exact .inl ⟨n, by rw [hn]⟩

/-- A word that is no number stands for itself. -/
theorem word_of_not_isNumber {cs : List Char} (h : ¬IsNumber cs) :
    word cs = .str (String.ofList cs) := by
  rw [IsNumber, not_or, ← exists_whole?_iff, ← exists_real?_iff] at h
  simp only [not_exists] at h
  rw [word, Option.eq_none_iff_forall_ne_some.mpr h.2, Option.eq_none_iff_forall_ne_some.mpr h.1]

/-- Does the character stand in some number? -/
def isNumberMark (c : Char) : Bool := isDigit c || isSignMark c || isExponentMark c || c == '.'

theorem IsSign.marks {sign : List Char} {negative : Bool} (h : IsSign sign negative) :
    ∀ c ∈ sign, isNumberMark c = true := by
  cases h <;> simp [isNumberMark, isSignMark]

theorem IsDigits.marks {cs : List Char} (h : IsDigits cs) : ∀ c ∈ cs, isNumberMark c = true :=
  fun c hc => by simp [isNumberMark, h.2 c hc]

theorem IsExponent.marks {cs : List Char} (h : IsExponent cs) : ∀ c ∈ cs, isNumberMark c = true := by
  cases h with
  | absent => simp
  | given hmark hsign hdigits =>
    refine List.forall_mem_cons.mpr ⟨?_, List.forall_mem_append.mpr ⟨hsign.marks, hdigits.marks⟩⟩
    simp [isNumberMark, isExponentMark, hmark]

/-- A number has no other characters than digits, signs, points and marks of exponents. -/
theorem IsNumber.marks {cs : List Char} (h : IsNumber cs) : ∀ c ∈ cs, isNumberMark c = true := by
  rcases h with ⟨hsign, hdigits, -⟩ | ⟨hsign, hdigits, hexponent⟩
  · exact List.forall_mem_append.mpr ⟨hsign.marks, hdigits.marks⟩
  · obtain ⟨hwhole, hplaces⟩ := List.forall_mem_append.mp hdigits.marks
    exact List.forall_mem_append.mpr ⟨hsign.marks, List.forall_mem_append.mpr ⟨hwhole,
      List.forall_mem_cons.mpr ⟨rfl, List.forall_mem_append.mpr ⟨hplaces, hexponent.marks⟩⟩⟩⟩

/-! ### Bare texts -/

/-- A text without white space at its ends that opens no quoted text, no list and no table. -/
structure Bare (cs : List Char) : Prop where
  start : Avoids isBlank cs
  stop : ∀ c ∈ cs.getLast?, isBlank c = false
  opening : ∀ c ∈ cs.head?, c ∉ ['"', '\'', '[', '\x7b']

/-- A bare text has neither white space at its ends nor an opening bracket or quote. -/
theorem bare_iff {cs : List Char} : Bare cs ↔
    cs.head?.all (fun c => !isBlank c && decide (c ∉ ['"', '\'', '[', '\x7b'])) = true ∧
      cs.getLast?.all (!isBlank ·) = true := by
  simp only [Option.all_eq_true, Bool.and_eq_true, Bool.not_eq_true', decide_eq_true_eq]
  constructor
  · intro h
    exact ⟨fun c hc => ⟨h.start c hc, h.opening c hc⟩, h.stop⟩
  · rintro ⟨hhead, hstop⟩
    exact ⟨fun c hc => (hhead c hc).1, hstop, fun c hc => (hhead c hc).2⟩

instance (cs : List Char) : Decidable (Bare cs) := decidable_of_iff' _ bare_iff

/-- The name of a truth value. -/
def truth (b : Bool) : List Char := if b then "true".toList else "false".toList

/-- The text of a value that is no text: a truth value or a number. -/
def IsTyped (cs : List Char) : Prop := (∃ b, cs = truth b) ∨ IsNumber cs

theorem isBlank_of_isGap {c : Char} (h : isGap c = true) : isBlank c = true := by
  simp only [isGap, Bool.or_eq_true, beq_iff_eq] at h
  rcases h with (((rfl | rfl) | rfl) | rfl) | rfl <;> rfl

/-- White space of one kind is skipped where none of another is. -/
theorem skipGap_of_avoids {cs : List Char} (h : Avoids isBlank cs) : skipGap cs = cs :=
  dropWhile_of_avoids (h.of_imp fun _ => isBlank_of_isGap)

theorem Bare.trimBy_eq {cs : List Char} (h : Bare cs) : trimBy isBlank cs = cs := by
  rw [trimBy, dropWhile_of_avoids h.start, dropEndWhile_of_getLast? h.stop]

/-- The end of a bare text is not skipped. -/
theorem Bare.skipGap_ne_nil {front cs : List Char} (h : Bare (front ++ cs)) (hne : cs ≠ []) :
    skipGap cs ≠ [] := by
  intro hnil
  have hgap : isGap (cs.getLast hne) = true :=
    List.dropWhile_eq_nil_iff.mp hnil _ (List.getLast_mem hne)
  have hvisible := h.stop (cs.getLast hne) (by
    rw [List.getLast?_append, List.getLast?_eq_some_getLast hne]
    rfl)
  rw [isBlank_of_isGap hgap] at hvisible
  cases hvisible

/-- A bare text is read as a truth value that it starts with, or as a word. -/
theorem readValue_bare {cs : List Char} (h : Bare cs) (depth : Nat) :
    (∃ b rest, cs = truth b ++ rest ∧ readValue depth cs = some (.bool b, skipGap rest)) ∨
      (∀ b, ¬truth b <+: cs) ∧ readValue depth cs =
        some (word (trimBy isBlank (cs.takeWhile isWordPart)), skipGap (cs.dropWhile isWordPart)) := by
  rw [readValue, skipGap_of_avoids h.start]
  split
  · next rest => exact .inl ⟨true, rest, rfl, rfl⟩
  · next rest => exact .inl ⟨false, rest, rfl, rfl⟩
  · exact absurd (h.opening _ rfl) (by simp)
  · exact absurd (h.opening _ rfl) (by simp)
  · exact absurd (h.opening _ rfl) (by simp)
  · exact absurd (h.opening _ rfl) (by simp)
  · exact absurd (h.opening _ rfl) (by simp)
  -- Neither word is at the head, and no mark that opens a value.
  · next htrue hfalse _ _ _ _ _ =>
    refine .inr ⟨?_, rfl⟩
    rintro b ⟨rest, rfl⟩
    cases b
    · exact hfalse rest rfl
    · exact htrue rest rfl

/-- What starts with the name of a truth value is no number. -/
theorem not_isNumber_truth (b : Bool) (rest : List Char) : ¬IsNumber (truth b ++ rest) := by
  intro h
  have hmark := h.marks
  cases b with
  | true => cases hmark 't' (by simp [truth])
  | false => cases hmark 'f' (by simp [truth])

/-- A number is one word. -/
theorem isWordPart_of_isNumberMark {c : Char} (h : isNumberMark c = true) : isWordPart c = true := by
  have hne : ∀ d, isNumberMark d = false → c ≠ d := by
    rintro d hd rfl
    cases hd.symm.trans h
  simp [isWordPart, hne ',' (by decide), hne '\x7b' (by decide), hne '\x7d' (by decide),
    hne '[' (by decide), hne ']' (by decide)]

/-- A value that ends before its text does is taken for a text. -/
theorem value_of_read {s : String} {v : Value} {rest : List Char}
    (h : readValue s.length s.toList = some (v, rest)) :
    value s = if rest = [] then v else .str s := by
  rw [value, h]
  cases rest <;> rfl

/-- A bare text has the value of the truth value that it names, or the value of a word. -/
theorem value_bare {s : String} (h : Bare s.toList) :
    (∃ b, s.toList = truth b ∧ value s = .bool b) ∨
      (∀ b, s.toList ≠ truth b) ∧ value s = word s.toList := by
  have hself : value s = .str s → ¬IsNumber s.toList → value s = word s.toList := by
    intro hvalue hnumber
    rw [hvalue, word_of_not_isNumber hnumber, String.ofList_toList]
  rcases readValue_bare h s.length with ⟨b, rest, hs, hread⟩ | ⟨htruth, hread⟩
  · by_cases hrest : rest = []
    · subst hrest
      rw [List.append_nil] at hs
      exact .inl ⟨b, hs, value_of_read hread⟩
    · -- more follows, and so the text is not read as a whole
      refine .inr ⟨fun b' hs' => ?_, hself ?_ (hs ▸ not_isNumber_truth b rest)⟩
      · have hlength := congrArg List.length (hs.symm.trans hs')
        cases b <;> cases b' <;> simp_all [truth]
      · rw [value_of_read hread, if_neg ((hs ▸ h).skipGap_ne_nil hrest)]
  · refine .inr ⟨fun b hs => htruth b (hs ▸ List.prefix_rfl), ?_⟩
    by_cases hparts : ∀ c ∈ s.toList, isWordPart c = true
    · rw [value_of_read hread, List.takeWhile_eq_self_iff.mpr hparts, h.trimBy_eq,
        List.dropWhile_eq_nil_iff.mpr hparts]
      rfl
    · -- the word stops at a mark
      refine hself ?_ fun hnumber =>
        hparts fun c hc => isWordPart_of_isNumberMark (hnumber.marks c hc)
      have hrest : s.toList.dropWhile isWordPart ≠ [] := by
        rwa [Ne, List.dropWhile_eq_nil_iff]
      have hbare : Bare (s.toList.takeWhile isWordPart ++ s.toList.dropWhile isWordPart) := by
        rwa [List.takeWhile_append_dropWhile]
      rw [value_of_read hread, if_neg (hbare.skipGap_ne_nil hrest)]

/-- A bare text that is typed is read as a truth value or a number. -/
theorem value_of_isTyped {s : String} (h : Bare s.toList) (htyped : IsTyped s.toList) :
    (∃ b, value s = .bool b) ∨ (∃ n, value s = .int n) ∨ ∃ x, value s = .real .double x := by
  rcases value_bare h with ⟨b, -, hvalue⟩ | ⟨htruth, hvalue⟩
  · exact .inl ⟨b, hvalue⟩
  · rw [hvalue]
    exact .inr (word_of_isNumber (htyped.resolve_left fun ⟨b, hs⟩ => htruth b hs))

/-- Any other bare text stands for itself. -/
theorem value_of_not_isTyped {s : String} (h : Bare s.toList) (htyped : ¬IsTyped s.toList) :
    value s = .str s := by
  rw [IsTyped, not_or] at htyped
  rcases value_bare h with ⟨b, hs, -⟩ | ⟨-, hvalue⟩
  · exact absurd ⟨b, hs⟩ htyped.1
  · rw [hvalue, word_of_not_isNumber htyped.2, String.ofList_toList]

end PolyLex.Environment
