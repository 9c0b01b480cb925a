import Mathlib.Order.Bounds.Defs
import PolyLex.Proofs.Scan.Bytes
import PolyLex.Proofs.Scan.Rule

/-!
# What is found by byte offset

A scanner that works in place looks for a close marker from left to right and jumps over what a
backslash escapes. Which marker it finds is said here by looking back: the first one with an even
number of backslashes directly before it (`ClosesAt`, `IsFirstEnd`). The search meets no fault on
the way (`exists_isFirstEnd`).

A literal of one line is the case of a single quote as the marker, looked for behind the opening
quote. Offsets of the line and of what stands behind its first character differ by the size of that
character (`closesAt_cons_iff`), so where the literal ends can be said on the line as a whole
(`IsLiteralEnd`).

Numbers are read byte by byte, with three forms that start alike. No byte outside the text is read,
and what is found is the longest opening that the grammar admits (`numberClaim?_longest`).
-/

namespace PolyLex.Scan.Bytes

open Text

/-! ### Offsets at which a construct closes -/

/-- A close marker stands at byte offset `i` of the text and counts: where there are escapes, an
even number of backslashes stands directly before it. -/
def ClosesAt (escapes : Bool) (close text : List Char) (i : Nat) : Prop :=
  ∃ front back, text = front ++ (close ++ back) ∧ size front = i ∧
    (escapes = true → (front.reverse.takeWhile (· == '\\')).length % 2 = 0)

/-- What a search for the close marker has to find: the end of the first marker that counts, and
nothing if none does. -/
def IsFirstEnd (escapes : Bool) (close text : List Char) : Option Nat → Prop
  | some e => ∃ i, IsLeast {i | ClosesAt escapes close text i} i ∧ e = i + size close
  | none => ∀ i, ¬ ClosesAt escapes close text i

/-- Where a literal that starts the line has to end: behind the first later quote that counts, or
else behind the line. -/
def IsLiteralEnd (quote : Char) (line : List Char) (e : Nat) : Prop :=
  (∃ i, IsLeast {i | 0 < i ∧ ClosesAt true [quote] line i} i ∧ e = i + quote.utf8Size) ∨
    (∀ i, 0 < i → ¬ ClosesAt true [quote] line i) ∧ e = size line

variable {escapes : Bool} {close text : List Char} {i n : Nat}

/-- The offsets in bytes are the sizes of the openings before the offsets in characters. -/
theorem closesAt_iff : ClosesAt escapes close text i ↔
    ∃ n ≤ text.length, Scan.ClosesAt escapes close text n ∧ i = size (text.take n) := by
  constructor
  · rintro ⟨front, back, rfl, rfl, heven⟩
    refine ⟨front.length, by simp, ⟨?_, ?_⟩, by rw [List.take_left]⟩
    · rw [StandsAt, List.drop_left]
      exact List.prefix_append close back
    · rw [backslashesBefore, List.take_left]
      exact heven
  · rintro ⟨n, -, ⟨⟨back, hback⟩, heven⟩, rfl⟩
    exact ⟨text.take n, back, by rw [hback, List.take_append_drop], rfl, heven⟩

theorem size_take_mono {m : Nat} (hm : m ≤ text.length) (h : n ≤ m) :
    size (text.take n) ≤ size (text.take m) := by
  rw [← Nat.not_lt, size_take_lt_iff hm (Nat.le_trans h hm)]
  exact Nat.not_lt.mpr h

/-- The first offset in characters is also the least in bytes. -/
theorem isLeast_of_firstClose (hle : n ≤ text.length) (h : FirstClose escapes close text n) :
    IsLeast {i | ClosesAt escapes close text i} (size (text.take n)) := by
  refine ⟨closesAt_iff.mpr ⟨n, hle, h.1, rfl⟩, fun i hi => ?_⟩
  obtain ⟨m, hm, hcloses, rfl⟩ := closesAt_iff.mp hi
  exact size_take_mono hm (Nat.not_lt.mp fun hlt => h.2 m hlt hcloses)

/-- Through a marker that stands in the text there are as many bytes as before and in the marker. -/
theorem size_take_of_standsAt (h : StandsAt close text n) :
    size (text.take (n + close.length)) = size (text.take n) + size close := by
  rw [List.take_add, size_append, ← List.prefix_iff_eq_take.mp h]

/-- The search meets no fault and finds the first marker that counts. -/
theorem exists_isFirstEnd (h : Searchable escapes close) (text : List Char) :
    ∃ end?, closeEnd? escapes close text = .ok end? ∧ IsFirstEnd escapes close text end? := by
  refine ⟨_, closeEnd?_eq escapes close text, ?_⟩
  cases hend : Scan.closeEnd? escapes close text with
  | none =>
    intro i hi
    obtain ⟨n, -, hcloses, -⟩ := closesAt_iff.mp hi
    exact (closeEnd?_eq_none_iff h).mp hend n hcloses
  | some m =>
    obtain ⟨n, hfirst, rfl⟩ := (closeEnd?_eq_some_iff h).mp hend
    have hle := standsAt_length_le h.1 hfirst.1.1
    exact ⟨_, isLeast_of_firstClose (by omega) hfirst, size_take_of_standsAt hfirst.1.1⟩

/-! ### Literals of one line -/

/-- What closes a line behind its first character closes what stands behind that character, unless
it is a backslash. -/
theorem closesAt_cons_iff {c : Char} (hc : c ≠ '\\') {cs : List Char} :
    0 < i ∧ ClosesAt escapes close (c :: cs) i ↔
      ∃ j, ClosesAt escapes close cs j ∧ i = c.utf8Size + j := by
  have hplain : ¬ (escapes && c == '\\') = true := by simp [hc]
  simp only [closesAt_iff]
  constructor
  · rintro ⟨hpos, n, hle, hcloses, rfl⟩
    cases n with
    | zero => exact absurd hpos (Nat.lt_irrefl 0)
    | succ n =>
      exact ⟨_, ⟨n, Nat.le_of_succ_le_succ hle, (closesAt_succ hplain n).mp hcloses, rfl⟩, rfl⟩
  · rintro ⟨_, ⟨n, hle, hcloses, rfl⟩, rfl⟩
    have := c.utf8Size_pos
    exact ⟨by omega, n + 1, Nat.succ_le_succ hle, (closesAt_succ hplain n).mpr hcloses, rfl⟩

/-- Where the search behind the quote ends, the literal does. -/
theorem isLiteralEnd_of_isFirstEnd {quote : Char} (hquote : quote ≠ '\\') {body : List Char} :
    ∀ {end? : Option Nat}, IsFirstEnd true [quote] body end? →
      IsLiteralEnd quote (quote :: body)
        ((end?.map (quote.utf8Size + ·)).getD (size (quote :: body)))
  | some _, ⟨j, ⟨hcloses, hleast⟩, rfl⟩ => by
    refine .inl ⟨quote.utf8Size + j, ⟨(closesAt_cons_iff hquote).mpr ⟨j, hcloses, rfl⟩, ?_⟩, ?_⟩
    · intro i hi
      obtain ⟨k, hk, rfl⟩ := (closesAt_cons_iff hquote).mp hi
      exact Nat.add_le_add_left (hleast hk) _
    · exact (Nat.add_assoc ..).symm
  | none, hnone => by
    refine .inr ⟨fun i hpos hcloses => ?_, rfl⟩
    obtain ⟨k, hk, -⟩ := (closesAt_cons_iff hquote).mp ⟨hpos, hcloses⟩
    exact hnone k hk

/-- At a quote a literal is claimed, without a fault, up to where it has to end. -/
theorem exists_isLiteralEnd {p : Profile} {quote : Char} {kind : Kind}
    (hkind : Category.quoteKind? p quote = some kind) (hslash : quote ≠ '\\') (hn : quote ≠ '\n')
    (hr : quote ≠ '\r') (cs : List Char) :
    ∃ e, quotedClaim? p (quote :: cs) = .ok (some { kind, length := e }) ∧
      IsLiteralEnd quote (content (quote :: cs)) e := by
  have hsearch : Searchable true [quote] :=
    ⟨List.cons_ne_nil _ _, fun _ hhead => hslash (Option.some.inj hhead)⟩
  obtain ⟨end?, hend, hfirst⟩ := exists_isFirstEnd hsearch (content cs)
  rw [quotedClaim?_cons hkind hn hr, hend, ok_bind, content_cons_of_ne hn hr]
  refine ⟨_, ?_, isLiteralEnd_of_isFirstEnd hslash hfirst⟩
  cases end? with
  | none => rfl
  | some n => rfl

/-- A search that honours backslashes finds the first close marker with an even number of them
directly before it, and one that does not finds the first close marker; what it answers is the end
of the marker, or nothing if there is none. So a literal ends behind the first later quote of its
line with an even number of backslashes directly before it, and with its line, the terminator set
aside, if there is none. -/
theorem closeEnd?_parity :
    (∀ (escapes : Bool) (close text : List Char), Searchable escapes close →
      ∃ end?, closeEnd? escapes close text = .ok end? ∧ IsFirstEnd escapes close text end?) ∧
    ∀ (p : Profile) (quote : Char) (kind : Kind) (cs : List Char),
      Category.quoteKind? p quote = some kind → quote ≠ '\\' → quote ≠ '\n' → quote ≠ '\r' →
      ∃ line e, IsContentOf (quote :: cs) line ∧ IsLiteralEnd quote line e ∧
        quotedClaim? p (quote :: cs) = .ok (some { kind, length := e }) := by
  constructor
  · intro escapes close text hsearch
    exact exists_isFirstEnd hsearch text
  · intro p quote kind cs hkind hslash hn hr
    obtain ⟨e, hclaim, hend⟩ := exists_isLiteralEnd hkind hslash hn hr cs
    exact ⟨_, e, isContentOf_content _, hend, hclaim⟩

/-- The first quote is escaped; before the second one stands a backslash that is escaped itself. The
first character takes two bytes. -/
def escapedTwice : List Char := ['é', '\\', '"', '\\', '\\', '"', 'x']

/-- The second quote is the one that is found; in C it ends a string of eight bytes. -/
theorem closeEnd?_parity_escapedTwice :
    Searchable true ['"'] ∧ Category.quoteKind? Language.c.profile '"' = some .string ∧
    closeEnd? true ['"'] escapedTwice = .ok (some 7) ∧
    IsFirstEnd true ['"'] escapedTwice (some 7) ∧
    quotedClaim? Language.c.profile ('"' :: escapedTwice) =
      .ok (some { kind := .string, length := 8 }) ∧
    ∃ line, IsContentOf ('"' :: escapedTwice) line ∧ IsLiteralEnd '"' line 8 := by
  have hsearch : Searchable true ['"'] := ⟨by decide, by decide⟩
  have hkind : Category.quoteKind? Language.c.profile '"' = some .string := by decide
  have hfound : closeEnd? true ['"'] escapedTwice = .ok (some 7) := by rfl
  have hclaimed : quotedClaim? Language.c.profile ('"' :: escapedTwice) =
      .ok (some { kind := .string, length := 8 }) := by rfl
  -- Both laws are about what the scanner finds, which is computed above.
  obtain ⟨_, hend, hfirst⟩ := closeEnd?_parity.1 true ['"'] escapedTwice hsearch
  obtain ⟨line, _, hline, hliteral, hclaim⟩ := closeEnd?_parity.2 Language.c.profile '"' .string
    escapedTwice hkind (by decide) (by decide) (by decide)
  rw [hfound] at hend
  rw [hclaimed] at hclaim
  cases hend
  cases hclaim
  exact ⟨hsearch, hkind, hfound, hfirst, hclaimed, line, hline, hliteral⟩

/-! ### Numbers -/

variable {rest : List Char}

/-- A claim on a number is as long in bytes as in characters. -/
theorem inBytes_of_numberClaim? {c : Claim} (h : Category.numberClaim? rest = some c) :
    inBytes rest c = c := by
  obtain ⟨hlength, rfl⟩ := Category.numberClaim?_eq_some_iff.mp h
  rw [inBytes, size_take_numberLength hlength]

/-- Numbers are read by bytes as they are by characters. -/
theorem numberClaim?_eq_ok (rest : List Char) :
    numberClaim? rest = .ok (Category.numberClaim? rest) := by
  rw [numberClaim?_eq]
  cases hclaim : Category.numberClaim? rest with
  | none => rfl
  | some c => rw [Option.map_some, inBytes_of_numberClaim? hclaim]

/-- A number is claimed exactly where the text has an opening that is one. -/
theorem isSome_numberClaim?_iff : (Category.numberClaim? rest).isSome = true ↔
    ∃ w, w ≠ [] ∧ w <+: rest ∧ IsNumber w := by
  rw [Option.isSome_iff_exists]
  simp only [Category.numberClaim?_eq_some_iff]
  constructor
  · rintro ⟨_, hlength, -⟩
    have hnumber := isNumber_take_numberLength hlength
    exact ⟨_, hnumber.ne_nil, List.take_prefix _ _, hnumber⟩
  · rintro ⟨w, hne, hprefix, hnumber⟩
    have hpos : 0 < w.length := List.length_pos_iff.mpr hne
    have hle := length_le_numberLength hprefix hnumber
    exact ⟨_, by omega, rfl⟩

/-- The reader of numbers meets no fault, and by bytes it answers what it answers by characters. It
claims something exactly if some opening of the text is a number, and then the longest such opening,
which is as long in bytes as in characters. -/
theorem numberClaim?_longest (rest : List Char) :
    numberClaim? rest = .ok (Category.numberClaim? rest) ∧
    ((Category.numberClaim? rest).isSome = true ↔ ∃ w, w ≠ [] ∧ w <+: rest ∧ IsNumber w) ∧
    ∀ c ∈ Category.numberClaim? rest, ∃ w, Longest IsNumber rest w ∧
      c = { kind := .number, length := size w } := by
  refine ⟨numberClaim?_eq_ok rest, isSome_numberClaim?_iff, fun c hc => ?_⟩
  obtain ⟨hlength, rfl⟩ := Category.numberClaim?_eq_some_iff.mp hc
  exact ⟨_, Category.longest_number hlength, by rw [size_take_numberLength hlength]⟩

/-- A hexadecimal mark without digits leaves the zero, a point without digits the whole number. -/
example : numberClaim? "0xg".toList = .ok (some { kind := .number, length := 1 }) ∧
    numberClaim? "1.2.3".toList = .ok (some { kind := .number, length := 3 }) ∧
    numberClaim? "7.".toList = .ok (some { kind := .number, length := 1 }) := by
  decide +kernel

end PolyLex.Scan.Bytes
