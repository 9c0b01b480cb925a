import Mathlib.Data.List.Lex
import PolyLex.Proofs.Scan.Number
import PolyLex.Scan.Bytes

/-!
# Offsets and single bytes

The facts about UTF-8 that counting in bytes rests on. A text can be cut at the size of each of its
openings (`cut_append`), and of two openings the one with more characters takes more bytes
(`size_take_lt_iff`). Reading single bytes is safe for classes of ASCII characters: a run of such
bytes is a run of such characters (`runFrom_encode`), and the byte at an offset is in the class just
if the character there is (`any_getElem?_encode`). Texts are in the order of their bytes
(`encode_lt_encode`).
-/

namespace PolyLex.Scan.Bytes

open Text

/-- A step that meets no fault hands its value on. -/
theorem ok_bind {α β : Type} (a : α) (f : α → Except Fault β) : (Except.ok a >>= f) = f a := rfl

/-! ### Offsets -/

theorem size_append (front back : List Char) : size (front ++ back) = size front + size back := by
  induction front with
  | nil => simp [size]
  | cons c cs ih => simp only [List.cons_append, size, ih, Nat.add_assoc]

theorem size_pos {cs : List Char} (h : cs ≠ []) : 0 < size cs := by
  cases cs with
  | nil => exact absurd rfl h
  | cons c cs =>
    have := c.utf8Size_pos
    simp only [size]
    omega

/-- The size of a text is that of its UTF-8 bytes. -/
theorem size_toList (s : String) : size s.toList = s.utf8ByteSize := by
  have hcs : ∀ cs : List Char, size cs = (String.ofList cs).utf8ByteSize := by
    intro cs
    induction cs with
    | nil => rfl
    | cons c cs ih =>
      rw [String.ofList_cons, String.utf8ByteSize_append, String.utf8ByteSize_singleton, ← ih]
      rfl
  rw [hcs, String.ofList_toList]

/-- A text can be cut at the size of an opening. -/
theorem cut_append (front back : List Char) :
    cut (size front) (front ++ back) = .ok (front, back) := by
  induction front with
  | nil =>
    cases back <;> rfl
  | cons c cs ih =>
    obtain ⟨n, hn⟩ : ∃ n, size (c :: cs) = n + 1 :=
      Nat.exists_eq_add_one.mpr (size_pos (List.cons_ne_nil c cs))
    have hrest : n + 1 - c.utf8Size = size cs := by
      rw [← hn, size]
      omega
    have hfit : ¬ n + 1 < c.utf8Size := by
      rw [← hn, size]
      omega
    rw [hn, List.cons_append, cut, if_neg hfit, hrest, ih]
    rfl

theorem upTo_append (front back : List Char) : upTo (size front) (front ++ back) = .ok front := by
  rw [upTo, cut_append]
  rfl

theorem onFrom_append (front back : List Char) :
    onFrom (size front) (front ++ back) = .ok back := by
  rw [onFrom, cut_append]
  rfl

theorem upTo_take (n : Nat) (cs : List Char) : upTo (size (cs.take n)) cs = .ok (cs.take n) := by
  have h := upTo_append (cs.take n) (cs.drop n)
  rwa [List.take_append_drop] at h

/-- Of two openings of a text the one with more characters takes more bytes. -/
theorem size_take_lt_iff {cs : List Char} {m n : Nat} (hm : m ≤ cs.length) (hn : n ≤ cs.length) :
    size (cs.take m) < size (cs.take n) ↔ m < n := by
  -- Of two openings the longer one has more bytes, as no character has none.
  have hmono : ∀ {a b : Nat}, a < b → b ≤ cs.length → size (cs.take a) < size (cs.take b) := by
    intro a b hab hb
    have hsplit := List.take_append_drop a (cs.take b)
    rw [List.take_take, Nat.min_eq_left (Nat.le_of_lt hab)] at hsplit
    have hne : (cs.take b).drop a ≠ [] := by
      rw [← List.length_pos_iff, List.length_drop, List.length_take]
      omega
    rw [← hsplit, size_append]
    have := size_pos hne
    omega
  constructor
  · intro h
    rcases Nat.lt_trichotomy m n with hlt | heq | hlt
    · exact hlt
    · rw [heq] at h
      omega
    · have := hmono hlt hm
      omega
  · intro h
    exact hmono h hn

/-- A run has the size of the characters in it. -/
theorem runSize_eq (q : Char → Bool) (cs : List Char) : runSize q cs = size (cs.takeWhile q) := by
  induction cs with
  | nil => rfl
  | cons c cs ih =>
    rw [runSize, List.takeWhile_cons]
    split
    · rw [size, ih]
    · rfl

/-! ### Single bytes -/

theorem encode_cons (c : Char) (cs : List Char) :
    encode (c :: cs) = String.utf8EncodeChar c ++ encode cs := List.flatMap_cons

theorem encode_append (front back : List Char) :
    encode (front ++ back) = encode front ++ encode back := List.flatMap_append

/-- There are as many bytes as the size says. -/
theorem length_encode (cs : List Char) : (encode cs).length = size cs := by
  induction cs with
  | nil => rfl
  | cons c cs ih => rw [encode_cons, List.length_append, String.length_utf8EncodeChar, ih, size]

/-- An ASCII character is one byte. -/
theorem encodeChar_of_lt {c : Char} (h : c.toNat < 128) :
    String.utf8EncodeChar c = [UInt8.ofNat c.toNat] := by
  have hle : c.val.toNat ≤ 0x7f := Nat.le_of_lt_succ h
  rw [String.utf8EncodeChar]
  simp only [if_pos hle]
  rfl

/-- A byte that leads or follows in a longer encoding is none of ASCII. -/
theorem le_ofNat_mod_add {x m k : Nat} (hm : 0 < m) (hk : 128 ≤ k) (hmk : k + m ≤ 256) :
    128 ≤ UInt8.ofNat (x % m + k) := by
  have hlt : x % m < m := Nat.mod_lt x hm
  have hmod : (x % m + k) % 256 = x % m + k := Nat.mod_eq_of_lt (by omega)
  rw [UInt8.le_iff_toNat_le, UInt8.toNat_ofNat', hmod]
  show 128 ≤ x % m + k
  omega

/-- The bytes of every other character are no ASCII. -/
theorem le_of_mem_encodeChar {c : Char} (h : 128 ≤ c.toNat) :
    ∀ b ∈ String.utf8EncodeChar c, 128 ≤ b := by
  have hgt : ¬ c.val.toNat ≤ 0x7f := Nat.not_le.mpr h
  intro b hb
  rw [String.utf8EncodeChar] at hb
  simp only [if_neg hgt] at hb
  split at hb
  · simp only [List.mem_cons, List.not_mem_nil, or_false] at hb
    rcases hb with rfl | rfl <;> exact le_ofNat_mod_add (by decide) (by decide) (by decide)
  · split at hb
    · simp only [List.mem_cons, List.not_mem_nil, or_false] at hb
      rcases hb with rfl | rfl | rfl <;>
        exact le_ofNat_mod_add (by decide) (by decide) (by decide)
    · simp only [List.mem_cons, List.not_mem_nil, or_false] at hb
      rcases hb with rfl | rfl | rfl | rfl <;>
        exact le_ofNat_mod_add (by decide) (by decide) (by decide)

/-- The class holds of ASCII characters only. -/
def IsAscii (q : Char → Bool) : Prop := ∀ c, q c = true → c.toNat < 128

/-- A byte of ASCII is in a class just if its character is. -/
theorem isAsciiOf_ofNat {c : Char} (h : c.toNat < 128) (q : Char → Bool) :
    isAsciiOf q (UInt8.ofNat c.toNat) = q c := by
  have hnat : (UInt8.ofNat c.toNat).toNat = c.toNat := by
    rw [UInt8.toNat_ofNat']
    exact Nat.mod_eq_of_lt (by omega)
  have hlt : UInt8.ofNat c.toNat < 128 := by
    rw [UInt8.lt_iff_toNat_lt, hnat]
    exact h
  rw [isAsciiOf, hnat, Char.ofNat_toNat, decide_eq_true hlt, Bool.true_and]

theorem isAsciiOf_eq_false {b : UInt8} (h : 128 ≤ b) (q : Char → Bool) :
    isAsciiOf q b = false := by
  have hlt : ¬ b < 128 := UInt8.not_lt.mpr h
  rw [isAsciiOf, decide_eq_false hlt, Bool.false_and]

/-- The first byte of a text is in a class of ASCII characters just if the first character is. -/
theorem any_head_encode {q : Char → Bool} (hq : IsAscii q) (cs : List Char) :
    (encode cs).head?.any (isAsciiOf q) = cs.head?.any q := by
  cases cs with
  | nil => rfl
  | cons c cs =>
    rw [encode_cons]
    by_cases hc : c.toNat < 128
    · rw [encodeChar_of_lt hc]
      simp [isAsciiOf_ofNat hc]
    · -- The character is in no class of ASCII characters, and neither is its first byte.
      have hqc : q c = false := Bool.eq_false_iff.mpr fun h => hc (hq c h)
      obtain ⟨b, bs, hbs⟩ := List.exists_cons_of_ne_nil (String.utf8EncodeChar_ne_nil (c := c))
      have hb : 128 ≤ b := le_of_mem_encodeChar (Nat.not_lt.mp hc) b (by rw [hbs]; simp)
      rw [hbs]
      simp [isAsciiOf_eq_false hb, hqc]

/-- A run of bytes is a run of characters. -/
theorem takeWhile_encode {q : Char → Bool} (hq : IsAscii q) (cs : List Char) :
    (encode cs).takeWhile (isAsciiOf q) = encode (cs.takeWhile q) := by
  induction cs with
  | nil => rfl
  | cons c cs ih =>
    rw [encode_cons, List.takeWhile_cons]
    by_cases hc : c.toNat < 128
    · rw [encodeChar_of_lt hc, List.cons_append, List.nil_append, List.takeWhile_cons,
        isAsciiOf_ofNat hc]
      split
      · rw [ih, encode_cons, encodeChar_of_lt hc]
        rfl
      · rfl
    -- The bytes of other characters are all beyond ASCII, so the run ends at the first.
    · have hqc : ¬ q c = true := fun h => hc (hq c h)
      obtain ⟨b, bs, hbs⟩ := List.exists_cons_of_ne_nil (String.utf8EncodeChar_ne_nil (c := c))
      have hb : 128 ≤ b := le_of_mem_encodeChar (Nat.not_lt.mp hc) b (by rw [hbs]; simp)
      rw [if_neg hqc, hbs, List.cons_append, List.takeWhile_cons, isAsciiOf_eq_false hb]
      rfl

/-- A text of ASCII characters has as many bytes as characters. -/
theorem size_eq_length {cs : List Char} (h : ∀ c ∈ cs, c.toNat < 128) : size cs = cs.length := by
  induction cs with
  | nil => rfl
  | cons c cs ih =>
    have hone : c.utf8Size = 1 := by
      rw [← String.length_utf8EncodeChar, encodeChar_of_lt (h c List.mem_cons_self)]
      rfl
    rw [size, hone, ih fun d hd => h d (List.mem_cons_of_mem c hd), List.length_cons, Nat.add_comm]

/-- A run of ASCII characters has as many bytes as characters. -/
theorem size_takeWhile {q : Char → Bool} (hq : IsAscii q) (cs : List Char) :
    size (cs.takeWhile q) = Category.runLength q cs :=
  size_eq_length fun c hc => hq c (of_mem_takeWhile c hc)

/-- Behind an opening, the bytes of a class that follow are the characters of the class. -/
theorem runFrom_encode {q : Char → Bool} (hq : IsAscii q) (front back : List Char) :
    runFrom q (encode (front ++ back)) (size front) = .ok (Category.runLength q back) := by
  have hle : size front ≤ (encode (front ++ back)).length := by
    rw [length_encode, size_append]
    omega
  have hdrop : (encode (front ++ back)).drop (size front) = encode back := by
    rw [encode_append, ← length_encode, List.drop_left]
  rw [runFrom, if_pos hle, hdrop, takeWhile_encode hq, length_encode, size_takeWhile hq]

/-! ### Classes of ASCII characters -/

theorem toNat_le_toNat {c d : Char} (h : c ≤ d) : c.toNat ≤ d.toNat := UInt32.le_iff_toNat_le.mp h

theorem isAscii_isDigit : IsAscii isDigit := by
  intro c hc
  simp only [isDigit, Bool.and_eq_true, decide_eq_true_eq] at hc
  exact Nat.lt_of_le_of_lt (toNat_le_toNat hc.2) (by decide)

theorem isAscii_isHexDigit : IsAscii isHexDigit := by
  intro c hc
  simp only [isHexDigit, Bool.or_eq_true, Bool.and_eq_true, decide_eq_true_eq] at hc
  rcases hc with (hc | hc) | hc
  · exact isAscii_isDigit c hc
  · exact Nat.lt_of_le_of_lt (toNat_le_toNat hc.2) (by decide)
  · exact Nat.lt_of_le_of_lt (toNat_le_toNat hc.2) (by decide)

theorem isAscii_beq {a : Char} (ha : a.toNat < 128) : IsAscii (· == a) := by
  intro c hc
  rwa [eq_of_beq hc]

theorem isAscii_hexMark : IsAscii fun c => c == 'x' || c == 'X' := by
  intro c hc
  rcases Bool.or_eq_true_iff.mp hc with hc | hc
  · exact isAscii_beq (by decide) c hc
  · exact isAscii_beq (by decide) c hc

/-- The byte behind an opening is in a class of ASCII characters just if the next character is. -/
theorem any_getElem?_encode {q : Char → Bool} (hq : IsAscii q) (front back : List Char) :
    (encode (front ++ back))[size front]?.any (isAsciiOf q) = back.head?.any q := by
  have hlen := length_encode front
  rw [encode_append, ← hlen, List.getElem?_append_right (Nat.le_refl _), Nat.sub_self,
    ← List.head?_eq_getElem?, any_head_encode hq]

/-! ### The order of texts -/

theorem ofNat_lt_ofNat_iff {m n : Nat} (hm : m < 256) (hn : n < 256) :
    UInt8.ofNat m < UInt8.ofNat n ↔ m < n := by
  rw [UInt8.lt_iff_toNat_lt, UInt8.toNat_ofNat', UInt8.toNat_ofNat', Nat.mod_eq_of_lt hm,
    Nat.mod_eq_of_lt hn]

theorem ofNat_eq_ofNat_iff {m n : Nat} (hm : m < 256) (hn : n < 256) :
    UInt8.ofNat m = UInt8.ofNat n ↔ m = n := by
  rw [← UInt8.toNat_inj, UInt8.toNat_ofNat', UInt8.toNat_ofNat', Nat.mod_eq_of_lt hm,
    Nat.mod_eq_of_lt hn]

/-- Of two characters the smaller one has the smaller bytes, whatever follows. -/
theorem encodeChar_append_lt {c d : Char} (h : c < d) (more more' : List UInt8) :
    String.utf8EncodeChar c ++ more < String.utf8EncodeChar d ++ more' := by
  have hlt : c.val.toNat < d.val.toNat := UInt32.lt_iff_toNat_lt.mp h
  have hd : d.val.toNat < 0x110000 := by
    rcases d.valid with hlow | ⟨-, hhigh⟩
    · exact Nat.lt_trans hlow (by decide)
    · exact hhigh
  -- The bytes of a character hold its digits to base 64.
  have htwo : ∀ n, n / 4096 = n / 64 / 64 := fun n => (Nat.div_div_eq_div_mul n 64 64).symm
  have hthree : ∀ n, n / 262144 = n / 64 / 64 / 64 := fun n => by
    rw [Nat.div_div_eq_div_mul, Nat.div_div_eq_div_mul]
  simp only [String.utf8EncodeChar, htwo, hthree]
  generalize c.val.toNat = m at *
  generalize d.val.toNat = n at *
  -- Characters of different sizes differ in the leading byte, those of one size in the first digit
  -- in which they differ at all.
  split_ifs <;>
    simp (disch := omega) only [List.cons_append, List.nil_append, List.cons_lt_cons_iff,
      ofNat_lt_ofNat_iff, ofNat_eq_ofNat_iff] <;>
    omega

/-- Texts are in the order of their bytes. -/
theorem encode_lt_encode : ∀ {cs ds : List Char}, cs < ds → encode cs < encode ds
  | [], [], h => absurd h (List.lt_irrefl [])
  | [], d :: ds, _ => by
    obtain ⟨b, bs, hbs⟩ := List.exists_cons_of_ne_nil (String.utf8EncodeChar_ne_nil (c := d))
    rw [encode_cons, hbs]
    exact List.nil_lt_cons _ _
  | c :: cs, d :: ds, h => by
    rw [encode_cons, encode_cons]
    rcases List.cons_lt_cons_iff.mp h with hlt | ⟨rfl, hlt⟩
    · exact encodeChar_append_lt hlt _ _
    · exact List.Lex.append_left (· < ·) (encode_lt_encode hlt) _

end PolyLex.Scan.Bytes
