import PolyLex.Json.Printer
import PolyLex.Proofs.Json.Fit

/-!
# What is written can be read

A plain value, that is one without floating numbers, is read back from the text that `prettyAt`
writes of it, at whatever level it stands, whatever gap comes before it and whatever follows, as
long as that is nothing a number could go on with (`ReadsBack`, a case of `ReadsAs`). Strings come
back character by character (`reads_readChars_escaped`), whole numbers digit by digit
(`reads_readNumber_toDigits`), arrays and objects part by part.

* `readsBack_prettyAt` — the law for a value, by induction on the value;
* `readDocument_pretty`, `parse_pretty` — the law for documents.
-/

namespace PolyLex.Json

open Text

/-- A value without floating numbers whose brackets are nested at most so deeply. Whole numbers have
64 bits, signed or not. -/
inductive Value.Plain : Nat → Value → Prop
  | null {d : Nat} : Plain d .null
  | bool {d : Nat} (b : Bool) : Plain d (.bool b)
  | int {d : Nat} {n : Int} : -0x8000000000000000 ≤ n → n < 0x10000000000000000 → Plain d (.int n)
  | str {d : Nat} (s : String) : Plain d (.str s)
  | arr {d : Nat} {items : List Value} : (∀ v ∈ items, Plain d v) → Plain (d + 1) (.arr items)
  | obj {d : Nat} {members : List (String × Value)} : (∀ m ∈ members, Plain d m.2) →
      Plain (d + 1) (.obj members)

/-- Plain values fit. -/
theorem Value.Plain.fit {d : Nat} {v : Value} (h : v.Plain d) : v.Fit := by
  induction h with
  | null => exact .null
  | bool b => exact .bool b
  | int hlow hhigh => exact .int hlow hhigh
  | str s => exact .str s
  | arr _ ih => exact .arr ih
  | obj _ ih => exact .obj ih

/-! ### Strings -/

section Strings

variable {strict : Bool} {cs rest : List Char} {s : Option (List Char)}

/-- A character that needs no escape. -/
theorem reads_readChars_plain {c : Char} (hquote : c ≠ '"') (hslash : c ≠ '\\')
    (hcontrol : ¬ c.toNat < 0x20) (h : Reads (readChars strict cs) s rest) :
    Reads (readChars strict (c :: cs)) (s.map (c :: ·)) rest := by
  rw [readChars, if_neg hquote, if_neg hslash, if_neg hcontrol]
  refine h.bind fun hr => ?_
  simp

/-- A backslash and an escape that stands for a character. -/
theorem reads_readChars_escape {c : Char} {esc : List Char}
    (hescape : ∀ more, Reads (readEscape strict (esc ++ more)) (some c) more)
    (h : Reads (readChars strict cs) s rest) :
    Reads (readChars strict ('\\' :: (esc ++ cs))) (s.map (c :: ·)) rest := by
  rw [readChars, if_neg (by decide), if_pos rfl]
  refine (hescape cs).bind fun hr => ?_
  refine h.bind fun hr => ?_
  simp

/-- A letter behind a backslash stands for its character. -/
theorem reads_readEscape_letter {e c : Char} (he : escaped? e = some c) (hu : e ≠ 'u')
    (more : List Char) : Reads (readEscape strict ([e] ++ more)) (some c) more := by
  simp [readEscape, hu, he]

theorem hexValue?_hexDigit : ∀ n < 16, hexValue? (hexDigit n) = some n := by decide

/-- A control character is written by its number, which half of a pair never has. -/
theorem reads_readEscape_control {c : Char} (hc : c.toNat < 0x20) (more : List Char) :
    Reads (readEscape strict
      (['u', '0', '0', hexDigit (c.toNat / 16), hexDigit (c.toNat % 16)] ++ more)) (some c) more := by
  have hhigh := hexValue?_hexDigit (c.toNat / 16) (by omega)
  have hlow := hexValue?_hexDigit (c.toNat % 16) (by omega)
  have hzero : hexValue? '0' = some 0 := by decide
  have hhex : Reads (readHex
      ('0' :: '0' :: hexDigit (c.toNat / 16) :: hexDigit (c.toNat % 16) :: more)) c.toNat more := by
    simp only [readHex, hhigh, hlow, hzero, reads_ok, and_true]
    omega
  have hunicode : Reads (readUnicode strict
      ('0' :: '0' :: hexDigit (c.toNat / 16) :: hexDigit (c.toNat % 16) :: more)) (some c) more := by
    unfold readUnicode
    refine hhex.bind fun hr => ?_
    dsimp only
    -- Control characters are no half of a pair.
    rw [if_neg (by omega), if_neg (by omega), reads_pure, Char.ofNat_toNat]
    exact ⟨rfl, rfl⟩
  simpa [readEscape] using hunicode

/-- What a character is written as: an escape by a letter, one by number, or the character. -/
theorem escape_cases (c : Char) :
    (∃ e, escaped? e = some c ∧ e ≠ 'u' ∧ escape c = ['\\', e]) ∨
    (c.toNat < 0x20 ∧
      escape c = ['\\', 'u', '0', '0', hexDigit (c.toNat / 16), hexDigit (c.toNat % 16)]) ∨
    (c ≠ '"' ∧ c ≠ '\\' ∧ ¬ c.toNat < 0x20 ∧ escape c = [c]) := by
  -- Seven characters have a letter of their own, other control characters their number.
  by_cases hletter : c ∈ ['"', '\\', '\x08', '\x0c', '\n', '\r', '\t']
  · simp only [List.mem_cons, List.not_mem_nil, or_false] at hletter
    rcases hletter with rfl | rfl | rfl | rfl | rfl | rfl | rfl
    · exact .inl ⟨'"', rfl, by decide, rfl⟩
    · exact .inl ⟨'\\', rfl, by decide, rfl⟩
    · exact .inl ⟨'b', rfl, by decide, rfl⟩
    · exact .inl ⟨'f', rfl, by decide, rfl⟩
    · exact .inl ⟨'n', rfl, by decide, rfl⟩
    · exact .inl ⟨'r', rfl, by decide, rfl⟩
    · exact .inl ⟨'t', rfl, by decide, rfl⟩
  · simp only [List.mem_cons, List.not_mem_nil, or_false, not_or] at hletter
    by_cases hcontrol : c.toNat < 0x20
    · exact .inr (.inl ⟨hcontrol, by simp [escape, hletter, hcontrol]⟩)
    · exact .inr (.inr ⟨hletter.1, hletter.2.1, hcontrol, by simp [escape, hletter, hcontrol]⟩)

/-- Whatever a character is written as is read as that character. -/
theorem reads_readChars_escape_append (c : Char) (h : Reads (readChars strict cs) s rest) :
    Reads (readChars strict (escape c ++ cs)) (s.map (c :: ·)) rest := by
  rcases escape_cases c with ⟨e, he, hu, hc⟩ | ⟨hcontrol, hc⟩ | ⟨hquote, hslash, hcontrol, hc⟩
  · rw [hc]
    exact reads_readChars_escape (reads_readEscape_letter he hu) h
  · rw [hc]
    exact reads_readChars_escape (reads_readEscape_control hcontrol) h
  · rw [hc]
    exact reads_readChars_plain hquote hslash hcontrol h

/-- A text that was escaped reads back, whatever characters it has. -/
theorem reads_readChars_escaped (strict : Bool) (chars rest : List Char) :
    Reads (readChars strict (chars.flatMap escape ++ '"' :: rest)) (some chars) rest := by
  induction chars with
  | nil =>
    rw [List.flatMap_nil, List.nil_append, readChars]
    simp
  | cons c chars ih =>
    rw [List.flatMap_cons, List.append_assoc]
    exact reads_readChars_escape_append c ih

end Strings

/-! ### Whole numbers -/

theorem isDigit_of_mem_toDigits {n : Nat} : ∀ c ∈ Nat.toDigits 10 n, isDigit c = true := by
  intro c hc
  exact Nat.isDigit_of_mem_toDigits (by decide) (by decide) hc

theorem ofDigits_toDigits (n : Nat) :
    NumberText.ofDigits ((Nat.toDigits 10 n).map digitValue) = n := by
  have h := Nat.ofDigitChars_ten_toDigits (n := n)
  rw [Nat.ofDigitChars_eq_foldl] at h
  rw [NumberText.ofDigits, List.foldl_map]
  simpa only [Nat.mul_comm, digitValue] using h

/-- No number but zero is written with a zero in front. -/
theorem head?_toDigits_ne {n : Nat} (hn : 0 < n) : (Nat.toDigits 10 n).head? ≠ some '0' := by
  induction n using Nat.strongRecOn with
  | _ n ih =>
    rw [Nat.toDigits_eq_if (by decide)]
    split
    · show some n.digitChar ≠ some '0'
      intro h
      rw [Option.some.injEq, Nat.digitChar_eq_zero] at h
      omega
    · have hfront := ih (n / 10) (by omega) (by omega)
      obtain ⟨d, ds, hds⟩ := List.exists_cons_of_ne_nil (Nat.toDigits_ne_nil (n := n / 10) (b := 10))
      rw [hds] at hfront ⊢
      exact hfront

/-- The digits of a number are such as a number may have. -/
theorem toDigits_leading (n : Nat) :
    ¬ (((Nat.toDigits 10 n).map digitValue).head? = some 0 ∧
      1 < ((Nat.toDigits 10 n).map digitValue).length) := by
  rintro ⟨hhead, hlen⟩
  rw [List.length_map] at hlen
  have hn : 0 < n := by
    apply Nat.pos_of_ne_zero
    rintro rfl
    exact absurd hlen (by decide)
  obtain ⟨d, ds, hds⟩ := List.exists_cons_of_ne_nil (Nat.toDigits_ne_nil (n := n) (b := 10))
  have hd : isDigit d = true := isDigit_of_mem_toDigits d (hds ▸ List.mem_cons_self)
  have hne := head?_toDigits_ne hn
  rw [hds] at hhead hne
  have hvalue : digitValue d = 0 := Option.some.inj hhead
  -- a digit of value zero is the zero
  apply hne
  simp only [isDigit, Bool.and_eq_true, decide_eq_true_eq] at hd
  have hlow : '0'.toNat ≤ d.toNat := UInt32.le_iff_toNat_le.mp hd.1
  rw [digitValue] at hvalue
  exact congrArg some (Char.toNat_inj.mp (by omega))

/-- A number in digits is read as a whole, up to the first character that is no part of it. -/
theorem reads_readNumber_toDigits (strict : Bool) {negative : Bool} {n : Nat} {v : Value}
    (hv : NumberText.value? ⟨negative, (Nat.toDigits 10 n).map digitValue, none, none⟩ = some v)
    {rest : List Char} (hrest : Avoids isNumberPart rest) :
    Reads (readNumber strict negative (Nat.toDigits 10 n ++ rest)) v rest := by
  have hdigits : Avoids isDigit rest := hrest.of_imp fun c hc => by simp [isNumberPart, hc]
  have hpoint : Avoids (· == '.') rest := hrest.of_imp fun c hc => by simp_all [isNumberPart]
  have htake := takeDigits_append (isDigit_of_mem_toDigits (n := n)) hdigits
  have hne : ¬ ((Nat.toDigits 10 n).map digitValue).isEmpty = true := by
    simp [Nat.toDigits_ne_nil]
  have hfraction : Reads (readFraction (takeDigits (Nat.toDigits 10 n ++ rest)).2) none rest := by
    rw [htake]
    exact reads_readFraction_none hpoint
  unfold readNumber
  simp only [htake, dif_neg hne, if_neg (toDigits_leading n)]
  refine hfraction.bind fun hr => ?_
  refine (reads_readExponent_none hrest).bind fun hr => ?_
  simp [hv]

/-- A whole number reads back, if it is in the range of a machine word with or without a sign. -/
theorem reads_intText {strict : Bool} {inner : Option ((cs : List Char) → Reading Value cs)}
    {n : Int} (hlow : -0x8000000000000000 ≤ n) (hhigh : n < 0x10000000000000000) {rest : List Char}
    (hrest : Avoids isNumberPart rest) : ∃ c after, intText n ++ rest = c :: after ∧
      ReadsFrom strict inner c after (.int n) rest := by
  cases n with
  | ofNat n =>
    obtain ⟨d, ds, hds⟩ := List.exists_cons_of_ne_nil (Nat.toDigits_ne_nil (n := n) (b := 10))
    have hd : isDigit d = true := isDigit_of_mem_toDigits d (hds ▸ List.mem_cons_self)
    have hvalue : NumberText.value? ⟨false, (Nat.toDigits 10 n).map digitValue, none, none⟩ =
        some (.int (.ofNat n)) := by
      have hmax : n ≤ NumberText.wordMax := Nat.le_of_lt_succ (Int.ofNat_lt.mp hhigh)
      simp [NumberText.value?, ofDigits_toDigits, hmax]
    refine ⟨d, ds ++ rest, congrArg (· ++ rest) hds, .number hd ?_⟩
    have hread := reads_readNumber_toDigits strict hvalue hrest
    rwa [hds] at hread
  | negSucc n =>
    have hvalue : NumberText.value? ⟨true, (Nat.toDigits 10 (n + 1)).map digitValue, none, none⟩ =
        some (.int (.negSucc n)) := by
      have hmax : n + 1 ≤ NumberText.wordMax := by
        unfold NumberText.wordMax
        omega
      -- A negative number is neither zero nor below the range of 64 bits.
      have hsmall : ¬ (n + 1 = 0 ∨ 0x8000000000000000 < n + 1) := by omega
      simp only [NumberText.value?, ofDigits_toDigits, Option.isNone_none, hmax, and_self, if_true,
        not_true_eq_false, if_false, if_neg hsmall]
      rfl
    exact ⟨'-', _, rfl, .negative (reads_readNumber_toDigits strict hvalue hrest)⟩

/-! ### Values -/

/-- What is written of a value at a level is read as another one, whatever gap comes before it and
whatever follows, unless a number could go on there. -/
def ReadsAs (read : (cs : List Char) → Reading Value cs) (level : Nat) (v w : Value) : Prop :=
  ∀ gap rest : List Char, (∀ c ∈ gap, isGap c = true) → Avoids isNumberPart rest →
    Reads (read (gap ++ (v.prettyAt level ++ rest))) w rest

/-- What is written of the value at a level is read as the value. -/
def ReadsBack (read : (cs : List Char) → Reading Value cs) (level : Nat) (v : Value) : Prop :=
  ReadsAs read level v v

/-- White space is skipped up to the first other character. -/
theorem skipGap_append {gap : List Char} (hgap : ∀ c ∈ gap, isGap c = true) {c : Char}
    (hc : isGap c = false) (rest : List Char) : skipGap (gap ++ c :: rest) = c :: rest :=
  dropWhile_append_of_avoids hgap (avoids_cons hc rest)

theorem isGap_of_mem_newLine (level : Nat) : ∀ c ∈ Value.newLine level, isGap c = true := by
  intro c hc
  rcases List.mem_cons.mp hc with rfl | hc
  · rfl
  · rw [List.eq_of_mem_replicate hc]
    rfl

/-- A value starts with a character that is neither a gap nor a closing bracket. -/
theorem ReadsFrom.visible {strict : Bool} {inner : Option ((cs : List Char) → Reading Value cs)}
    {c : Char} {after rest : List Char} {v : Value} (h : ReadsFrom strict inner c after v rest) :
    isGap c = false ∧ c ≠ ']' := by
  cases h with
  | text => decide
  | array => decide
  | object => decide
  | negative => decide
  | number hdigit =>
    constructor
    · rw [Bool.eq_false_iff]
      intro hgap
      have hblank := isBlank_of_isGap hgap
      rw [isBlank_of_isDigit hdigit] at hblank
      cases hblank
    · rintro rfl
      cases hdigit
  | word hword =>
    cases hword <;> decide

/-- A printed value is read by its first character. -/
theorem readsAs_of_readsFrom {strict : Bool} {depth level : Nat} {v w : Value}
    (h : ∀ rest, Avoids isNumberPart rest → ∃ c after, v.prettyAt level ++ rest = c :: after ∧
      ReadsFrom strict (innerReader strict depth) c after w rest) :
    ReadsAs (readValue strict depth) level v w := by
  intro gap rest hgap hrest
  obtain ⟨c, after, hpretty, hfrom⟩ := h rest hrest
  rw [hpretty]
  exact reads_readValue_iff.mpr ⟨c, after, skipGap_append hgap hfrom.visible.1 _, hfrom.reads⟩

section Loops

variable {strict : Bool} {depth level : Nat}

/-- No closing bracket stands where a value is read. -/
theorem head?_ne_of_reads {cs rest : List Char} {v : Value}
    (h : Reads (readValue strict depth cs) v rest) : ∃ c ∈ (skipGap cs).head?, c ≠ ']' := by
  obtain ⟨c, after, hskip, hfrom⟩ := reads_readValue_iff.mp h
  rw [hskip]
  exact ⟨c, rfl, (ReadsFrom.of_reads hfrom).visible.2⟩

/-! ### Arrays -/

/-- No number goes on over the comma or the bracket behind an item. -/
theorem avoids_prettyItems (level : Nat) {gap : List Char} (hgap : ∀ c ∈ gap, isGap c = true)
    (items : List Value) (rest : List Char) :
    Avoids isNumberPart (Value.prettyItems level items ++ (gap ++ ']' :: rest)) := by
  cases items with
  | nil => exact avoids_gap_append hgap (by decide) rest
  | cons v items => exact avoids_cons (by decide) _

/-- Items that read back make a list that does. -/
theorem reads_prettyItems {gap : List Char} (hgap : ∀ c ∈ gap, isGap c = true) {items : List Value}
    (hitems : ∀ v ∈ items, ReadsBack (readValue strict depth) level v) (rest : List Char) :
    Reads (readMoreItems (readValue strict depth)
      (Value.prettyItems level items ++ (gap ++ ']' :: rest))) items rest := by
  induction items with
  | nil => exact reads_readMoreItems_iff.mpr (.inl ⟨rfl, skipGap_append hgap (by decide) rest⟩)
  | cons v items ih =>
    obtain ⟨hv, hitems⟩ := List.forall_mem_cons.mp hitems
    have hfirst := hv (Value.newLine level) _ (isGap_of_mem_newLine level)
      (avoids_prettyItems level hgap items rest)
    have hmore := ih hitems
    rw [Value.prettyItems, List.append_assoc, List.append_assoc, List.cons_append]
    exact reads_readMoreItems_iff.mpr
      (.inr ⟨_, v, _, items, rfl, rfl, head?_ne_of_reads hfirst, hfirst, hmore⟩)

/-- A list reads back if its items do. -/
theorem readsBack_arr {items : List Value}
    (hitems : ∀ v ∈ items, ReadsBack (readValue strict depth) (level + 1) v) :
    ReadsBack (readValue strict (depth + 1)) level (.arr items) := by
  apply readsAs_of_readsFrom
  intro rest _
  cases items with
  | nil =>
    -- empty brackets stand on one line
    refine ⟨'[', ']' :: rest, by rw [Value.prettyAt]; rfl, .array rfl ?_⟩
    exact reads_readItems_iff.mpr (.inl ⟨rfl, rfl⟩)
  | cons v items =>
    obtain ⟨hv, hitems⟩ := List.forall_mem_cons.mp hitems
    have hfirst := hv (Value.newLine (level + 1)) _ (isGap_of_mem_newLine (level + 1))
      (avoids_prettyItems (level + 1) (isGap_of_mem_newLine level) items rest)
    have hmore := reads_prettyItems (isGap_of_mem_newLine level) hitems rest
    refine ⟨'[', _, ?_, .array rfl (reads_readItems_iff.mpr
      (.inr ⟨v, _, items, rfl, head?_ne_of_reads hfirst, hfirst, hmore⟩))⟩
    simp [Value.prettyAt]

/-! ### Objects -/

theorem reads_prettyMember (name : String) {v w : Value}
    (hv : ReadsAs (readValue strict depth) level v w) {rest : List Char}
    (hrest : Avoids isNumberPart rest) :
    Reads (readMember strict (readValue strict depth)
      (name.toList.flatMap escape ++ '"' :: ([':', ' '] ++ (v.prettyAt level ++ rest))))
      (some name, w) rest := by
  have hspace : ∀ c ∈ [' '], isGap c = true := List.forall_mem_singleton.mpr rfl
  have hvalue := hv [' '] rest hspace hrest
  have hname := reads_readChars_escaped strict name.toList ([':', ' '] ++ (v.prettyAt level ++ rest))
  refine reads_readMember_iff.mpr ⟨some name.toList, _, _, w, hname, rfl, hvalue, ?_⟩
  rw [Option.map_some, String.ofList_toList]

/-- No number goes on over the comma or the brace behind a member. -/
theorem avoids_prettyMembers (level : Nat) {gap : List Char} (hgap : ∀ c ∈ gap, isGap c = true)
    (members : List (String × Value)) (rest : List Char) :
    Avoids isNumberPart (Value.prettyMembers level members ++ (gap ++ '\x7d' :: rest)) := by
  cases members with
  | nil => exact avoids_gap_append hgap (by decide) rest
  | cons m members => exact avoids_cons (by decide) _

/-- Members as they are read. -/
def named (members : List (String × Value)) : List Member := members.map fun m => (some m.1, m.2)

/-- What each item is taken back from, all items are. -/
theorem mapM_map_eq_some {α β : Type} {f : α → β} {g : β → Option α} {items : List α}
    (h : ∀ a ∈ items, g (f a) = some a) : (items.map f).mapM g = some items := by
  induction items with
  | nil => rfl
  | cons a items ih =>
    obtain ⟨ha, hitems⟩ := List.forall_mem_cons.mp h
    rw [List.map_cons, List.mapM_cons, ha, ih hitems]
    rfl

/-- Members whose names are texts make an object. -/
theorem ofMembers_named (members : List (String × Value)) :
    ofMembers (named members) = .obj members := by
  have hnames : (named members).mapM (fun m => m.1.map fun name => (name, m.2)) = some members :=
    mapM_map_eq_some fun _ _ => rfl
  rw [ofMembers, hnames]

/-- Members that read back make an object that does. -/
theorem reads_prettyMembers {gap : List Char} (hgap : ∀ c ∈ gap, isGap c = true)
    {f : Value → Value} {members : List (String × Value)}
    (hmembers : ∀ m ∈ members, ReadsAs (readValue strict depth) level m.2 (f m.2))
    (rest : List Char) :
    Reads (readMoreMembers strict (readValue strict depth)
      (Value.prettyMembers level members ++ (gap ++ '\x7d' :: rest)))
      (named (members.map fun m => (m.1, f m.2))) rest := by
  induction members with
  | nil => exact reads_readMoreMembers_iff.mpr (.inl ⟨rfl, skipGap_append hgap (by decide) rest⟩)
  | cons m members ih =>
    obtain ⟨name, v⟩ := m
    obtain ⟨hv, hmembers⟩ := List.forall_mem_cons.mp hmembers
    have hfirst := reads_prettyMember name hv
      (avoids_prettyMembers level hgap members rest)
    have hmore := ih hmembers
    refine reads_readMoreMembers_iff.mpr (.inr ⟨Value.newLine level ++ '"' ::
      (name.toList.flatMap escape ++ '"' :: ([':', ' '] ++ (v.prettyAt level ++
        (Value.prettyMembers level members ++ (gap ++ '\x7d' :: rest))))),
      _, _, _, _, rfl, ?_, skipGap_append (isGap_of_mem_newLine level) (by decide) _, hfirst, hmore⟩)
    rw [Value.prettyMembers]
    simp [skipGap, isGap, quoted]

theorem readsAs_obj {f : Value → Value} {members : List (String × Value)}
    (hmembers : ∀ m ∈ members, ReadsAs (readValue strict depth) (level + 1) m.2 (f m.2)) :
    ReadsAs (readValue strict (depth + 1)) level (.obj members)
      (.obj (members.map fun m => (m.1, f m.2))) := by
  apply readsAs_of_readsFrom
  intro rest _
  rw [← ofMembers_named (members.map fun m => (m.1, f m.2))]
  cases members with
  | nil =>
    refine ⟨'\x7b', '\x7d' :: rest, ?_, .object rfl (reads_readMembers_iff.mpr (.inl ⟨rfl, rfl⟩))⟩
    rw [Value.prettyAt]
    rfl
  | cons m members =>
    obtain ⟨name, v⟩ := m
    obtain ⟨hv, hmembers⟩ := List.forall_mem_cons.mp hmembers
    -- The first member is followed by the others, which no number goes on with.
    have hfirst := reads_prettyMember name hv (avoids_prettyMembers (level + 1)
      (isGap_of_mem_newLine level) members rest)
    have hmore := reads_prettyMembers (isGap_of_mem_newLine level) hmembers rest
    have hopened := skipGap_append (isGap_of_mem_newLine (level + 1)) (c := '"')
      (by decide)
    refine ⟨'\x7b', _, ?_, .object rfl (reads_readMembers_iff.mpr
      (.inr ⟨_, _, _, _, rfl, hopened _, hfirst, hmore⟩))⟩
    simp [Value.prettyAt, quoted]

/-- An object reads back if its members do. -/
theorem readsBack_obj {members : List (String × Value)}
    (hmembers : ∀ m ∈ members, ReadsBack (readValue strict depth) (level + 1) m.2) :
    ReadsBack (readValue strict (depth + 1)) level (.obj members) := by
  have hsame : members.map (fun m => (m.1, id m.2)) = members := List.map_id members
  have hread := readsAs_obj (f := id) hmembers
  rwa [hsame] at hread

end Loops

/-! ### Documents -/

/-- A plain value reads back at each depth that is deep enough for it. -/
theorem readsBack_prettyAt (strict : Bool) {d : Nat} {v : Value} (hv : v.Plain d) :
    ∀ {depth : Nat}, d ≤ depth → ∀ level, ReadsBack (readValue strict depth) level v := by
  induction hv with
  | null =>
    intro depth _ level
    apply readsAs_of_readsFrom
    intro rest _
    exact ⟨'n', _, by rw [Value.prettyAt]; rfl, .word .null (by simp [readWord])⟩
  | bool b =>
    intro depth _ level
    apply readsAs_of_readsFrom
    intro rest _
    cases b with
    | false => exact ⟨'f', _, by rw [Value.prettyAt]; rfl, .word .false (by simp [readWord])⟩
    | true => exact ⟨'t', _, by rw [Value.prettyAt]; rfl, .word .true (by simp [readWord])⟩
  | int hlow hhigh =>
    intro depth _ level
    apply readsAs_of_readsFrom
    intro rest hrest
    rw [Value.prettyAt]
    exact reads_intText hlow hhigh hrest
  | str s =>
    intro depth _ level
    apply readsAs_of_readsFrom
    intro rest _
    have hread : ReadsFrom strict (innerReader strict depth) '"' _ _ rest :=
      .text (reads_readChars_escaped strict s.toList rest)
    rw [Option.elim_some, Function.comp_apply, String.ofList_toList] at hread
    refine ⟨'"', _, ?_, hread⟩
    simp [Value.prettyAt, quoted]
  | arr _ ih =>
    intro depth hle level
    -- the brackets take one level of nesting, so one is left to take
    obtain ⟨depth, rfl⟩ := Nat.exists_eq_add_of_le' (Nat.le_trans (Nat.le_add_left 1 _) hle)
    exact readsBack_arr fun v hv => ih v hv (Nat.le_of_succ_le_succ hle) (level + 1)
  | obj _ ih =>
    intro depth hle level
    obtain ⟨depth, rfl⟩ := Nat.exists_eq_add_of_le' (Nat.le_trans (Nat.le_add_left 1 _) hle)
    exact readsBack_obj fun m hm => ih m hm (Nat.le_of_succ_le_succ hle) (level + 1)

/-- A plain value is read back from its document. -/
theorem readDocument_pretty {d : Nat} {v : Value} (hv : v.Plain d) (strict : Bool) {depth : Nat}
    (hd : d ≤ depth) : readDocument strict depth v.pretty = .ok v := by
  have hread := readsBack_prettyAt strict hv hd 0 [] [] (by simp) (avoids_nil _)
  rw [List.nil_append, List.append_nil] at hread
  refine readDocument_eq_ok_iff.mpr ⟨[], ?_, rfl⟩
  rw [Value.pretty, String.toList_ofList]
  exact hread

/-- A plain value is parsed from its document, with repeated names settled. -/
theorem parse_pretty {d : Nat} {v : Value} (hv : v.Plain d) (hd : d ≤ nestingLimit) :
    parse v.pretty = .ok v.settled := by
  rw [parse, readDocument_pretty hv true hd]
  rfl

end PolyLex.Json
