import PolyLex.Json.Reader
import PolyLex.Proofs.Text.Ends

/-!
# What the readers of a JSON document take

A reader that succeeds takes an opening of its text, and what it makes of that opening does not
depend on what follows. This module says so for the readers that read no value inside another one:
strings, numbers and words. Of a string nothing behind it matters at all, since it has its closing
quote. A number is only over where the text cannot go on with it, so what follows one must avoid
the characters of numbers (`Avoids`, `isNumberPart`).

* `Reads` — success of a reader, without the proof that the rest is shorter;
* `readChars_local`, `readNumber_local`, `readWord_local` — the opening that is taken, and the same
  success before any other rest.
-/

namespace PolyLex.Json

open Text

variable {α β : Type} {P Q : List Char → Prop}

/-! ### Success -/

/-- The reader succeeded with a value and left a rest. -/
def Reads (out : Except Stop (α × { r : List Char // P r })) (a : α) (rest : List Char) : Prop :=
  ∃ h, out = .ok (a, ⟨rest, h⟩)

@[simp] theorem reads_error (stop : Stop) (a : α) (rest : List Char) :
    ¬ Reads (P := P) (.error stop) a rest := by
  rintro ⟨h, he⟩
  cases he

@[simp] theorem reads_ok (a b : α) (r : { r : List Char // P r }) (rest : List Char) :
    Reads (.ok (a, r)) b rest ↔ a = b ∧ r.val = rest := by
  constructor
  · rintro ⟨h, he⟩
    cases he
    exact ⟨rfl, rfl⟩
  · rintro ⟨rfl, rfl⟩
    exact ⟨r.property, rfl⟩

@[simp] theorem reads_pure (a b : α) (r : { r : List Char // P r }) (rest : List Char) :
    Reads (pure (a, r)) b rest ↔ a = b ∧ r.val = rest := reads_ok a b r rest

/-- A result that is computed to be there and to pass a test. -/
theorem exists_ok_of_any {ε : Type} {x : Except ε α} {p : α → Bool}
    (h : x.toOption.any p = true) : ∃ a, x = .ok a ∧ p a = true := by
  cases x with
  | error e => cases h
  | ok a => exact ⟨a, rfl, h⟩

/-- Two readings one after the other. -/
theorem Reads.bind {m : Except Stop (α × { r : List Char // P r })}
    {k : α × { r : List Char // P r } → Except Stop (β × { r : List Char // Q r })}
    {a : α} {b : β} {r rest : List Char} (hm : Reads m a r)
    (hk : ∀ h, Reads (k (a, ⟨r, h⟩)) b rest) : Reads (m >>= k) b rest := by
  obtain ⟨h, rfl⟩ := hm
  exact hk h

/-- What is read in two steps is read by the first and then by the second. -/
theorem Reads.of_bind {m : Except Stop (α × { r : List Char // P r })}
    {k : α × { r : List Char // P r } → Except Stop (β × { r : List Char // Q r })}
    {b : β} {rest : List Char} (h : Reads (m >>= k) b rest) :
    ∃ a r, Reads m a r ∧ ∃ h, Reads (k (a, ⟨r, h⟩)) b rest := by
  cases m with
  | error stop => exact absurd h (reads_error stop b rest)
  | ok x =>
    obtain ⟨a, r, hr⟩ := x
    exact ⟨a, r, ⟨hr, rfl⟩, hr, h⟩

/-- What is known of the rest of the text does not matter to what is read. -/
@[simp] theorem reads_widen {small big : List Char} (h : small.length ≤ big.length)
    (out : Reading α small) (a : α) (rest : List Char) :
    Reads (Reading.widen h out) a rest ↔ Reads out a rest := by
  cases out with
  | error stop => simp [Reading.widen]
  | ok x =>
    obtain ⟨b, r⟩ := x
    rw [Reading.widen, reads_ok, reads_ok]

/-! ### Strings -/

/-- The digits of an escape are read whatever follows. -/
theorem readHex_local {cs rest : List Char} {n : Nat} (h : Reads (readHex cs) n rest) :
    ∃ body, cs = body ++ rest ∧ ∀ rest', Reads (readHex (body ++ rest')) n rest' := by
  unfold readHex at h
  split at h
  · next a b c d more =>
    split at h
    · next w x y z ha hb hc hd =>
      simp only [reads_ok] at h
      obtain ⟨rfl, rfl⟩ := h
      refine ⟨[a, b, c, d], rfl, fun rest' => ?_⟩
      simp [readHex, ha, hb, hc, hd]
    · simp at h
  · split at h <;> simp at h

theorem readTrail_local {high : Nat} {cs rest : List Char} {c : Char}
    (h : Reads (readTrail high cs) c rest) :
    ∃ body, cs = body ++ rest ∧ ∀ rest', Reads (readTrail high (body ++ rest')) c rest' := by
  unfold readTrail at h
  split at h
  · simp at h
  · simp at h
  · next more =>
    obtain ⟨low, r, hlow, hr, h⟩ := h.of_bind
    dsimp only at h
    split at h
    · next hrange =>
      simp only [reads_pure] at h
      obtain ⟨rfl, rfl⟩ := h
      -- The escape has a fixed length, so nothing behind it matters.
      obtain ⟨body, rfl, hbody⟩ := readHex_local hlow
      refine ⟨'\\' :: 'u' :: body, rfl, fun rest' => ?_⟩
      refine (hbody rest').bind fun hr => ?_
      simp [hrange]
    · simp at h
  · simp at h
  · simp at h

/-- A strict reading of an escape yields a character. -/
theorem readUnicode_local {cs rest : List Char} {o : Option Char}
    (h : Reads (readUnicode true cs) o rest) :
    ∃ c body, o = some c ∧ cs = body ++ rest ∧
      ∀ rest', Reads (readUnicode true (body ++ rest')) o rest' := by
  unfold readUnicode at h
  obtain ⟨n, r, hn, hr, h⟩ := h.of_bind
  obtain ⟨body, rfl, hbody⟩ := readHex_local hn
  dsimp only at h
  split at h
  · simp at h
  · next hlow =>
    split at h
    · next hhigh =>
      split at h
      · next c r' htrail =>
        -- the first half of a pair: the second one is read from what is left
        simp only [reads_pure] at h
        obtain ⟨rfl, rfl⟩ := h
        have htrail : Reads (readTrail n r) c r'.val := by
          rw [← reads_widen (Nat.le_of_lt hr)]
          exact ⟨_, htrail⟩
        obtain ⟨more, hmore, htake⟩ := readTrail_local htrail
        refine ⟨c, body ++ more, rfl, by rw [List.append_assoc, ← hmore], fun rest' => ?_⟩
        rw [List.append_assoc]
        refine (hbody (more ++ rest')).bind fun hr' => ?_
        obtain ⟨h', htrail'⟩ := (reads_widen (Nat.le_of_lt hr') _ c rest').mpr (htake rest')
        simp [hlow, hhigh, htrail']
      · simp at h
    · next hhigh =>
      simp only [reads_pure] at h
      obtain ⟨rfl, rfl⟩ := h
      refine ⟨_, body, rfl, rfl, fun rest' => ?_⟩
      refine (hbody rest').bind fun hr => ?_
      simp [hlow, hhigh]

/-- An escape is read whatever follows, and stands for a character. -/
theorem readEscape_local {cs rest : List Char} {o : Option Char}
    (h : Reads (readEscape true cs) o rest) :
    ∃ c body, o = some c ∧ cs = body ++ rest ∧
      ∀ rest', Reads (readEscape true (body ++ rest')) o rest' := by
  unfold readEscape at h
  split at h
  · simp at h
  · next c more =>
    split at h
    · next hc =>
      rw [reads_widen] at h
      obtain ⟨d, body, rfl, rfl, hbody⟩ := readUnicode_local h
      refine ⟨d, c :: body, rfl, rfl, fun rest' => ?_⟩
      simp [readEscape, hc, hbody]
    · next hc =>
      split at h
      · next d hd =>
        simp only [reads_ok] at h
        obtain ⟨rfl, rfl⟩ := h
        refine ⟨d, [c], rfl, rfl, fun rest' => ?_⟩
        simp [readEscape, hc, hd]
      · simp at h

/-- A strict reading of a string yields characters and goes to the closing quote. -/
theorem readChars_local {cs rest : List Char} {o : Option (List Char)}
    (h : Reads (readChars true cs) o rest) :
    ∃ s body, o = some s ∧ cs = body ++ '"' :: rest ∧
      ∀ rest', Reads (readChars true (body ++ '"' :: rest')) o rest' := by
  -- on the length, as an escape leaves a rest that is shorter by some characters
  induction hn : cs.length using Nat.strongRecOn generalizing cs o with
  | _ n ih =>
    unfold readChars at h
    split at h
    · simp at h
    · next c more =>
      rw [List.length_cons] at hn
      split at h
      · next hc =>
        simp only [reads_ok] at h
        obtain ⟨rfl, rfl⟩ := h
        refine ⟨[], [], rfl, by rw [hc]; rfl, fun rest' => ?_⟩
        rw [List.nil_append, readChars]
        simp
      · next hquote =>
        split at h
        · next hc =>
          obtain ⟨d, r, hd, hr, h⟩ := h.of_bind
          obtain ⟨chars, r', hchars, hr', h⟩ := h.of_bind
          simp only [reads_pure] at hchars h
          obtain ⟨rfl, rfl⟩ := h
          obtain ⟨d, body, rfl, rfl, hbody⟩ := readEscape_local hd
          obtain ⟨s, body', rfl, rfl, hbody'⟩ := ih r.length (by omega) hchars rfl
          refine ⟨d :: s, c :: (body ++ body'), rfl, by simp, fun rest' => ?_⟩
          rw [List.cons_append, readChars, if_neg hquote, if_pos hc, List.append_assoc]
          refine (hbody _).bind fun hr => ?_
          refine (hbody' rest').bind fun hr => ?_
          simp
        · next hc =>
          split at h
          · simp at h
          · next hcontrol =>
            obtain ⟨chars, r', hchars, hr, h⟩ := h.of_bind
            simp only [reads_pure] at h
            obtain ⟨rfl, rfl⟩ := h
            obtain ⟨s, body, rfl, rfl, hbody⟩ := ih _ (by omega) hchars rfl
            refine ⟨c :: s, c :: body, rfl, rfl, fun rest' => ?_⟩
            rw [List.cons_append, readChars, if_neg hquote, if_neg hc, if_neg hcontrol]
            refine (hbody rest').bind fun hr => ?_
            simp

/-! ### Numbers -/

/-- Can a number go on with the character? -/
def isNumberPart (c : Char) : Bool := isDigit c || c == '.' || c == 'e' || c == 'E'

/-- The value of a digit. -/
def digitValue (c : Char) : Nat := c.toNat - '0'.toNat

/-- What is taken are digits, by their values. -/
theorem exists_takeDigits (cs : List Char) : ∃ ds,
    cs = ds ++ (takeDigits cs).2 ∧ (takeDigits cs).1 = ds.map digitValue ∧
      ∀ c ∈ ds, isDigit c = true := by
  obtain ⟨ds, hcs, htake, hds, -⟩ := exists_dropWhile isDigit cs
  exact ⟨ds, hcs, congrArg (List.map digitValue) htake, hds⟩

/-- Digits are taken up to the first other character. -/
theorem takeDigits_append {ds more : List Char} (hds : ∀ c ∈ ds, isDigit c = true)
    (hmore : Avoids isDigit more) : takeDigits (ds ++ more) = (ds.map digitValue, more) := by
  rw [takeDigits, takeWhile_append_of_avoids hds hmore, dropWhile_append_of_avoids hds hmore]
  rfl

theorem reads_readFraction_none {cs : List Char} (h : Avoids (· == '.') cs) :
    Reads (readFraction cs) none cs := by
  unfold readFraction
  split
  · next more =>
    have hpoint := h '.' rfl
    cases hpoint
  · simp

/-- How a fraction is read depends on what follows only if that goes on with a digit or a point. -/
theorem readFraction_local {cs rest : List Char} {f : Option (List Nat)}
    (h : Reads (readFraction cs) f rest) :
    ∃ body, cs = body ++ rest ∧ (body = [] ∨ EndsVisibly body) ∧ Avoids isDigit body ∧
      ∀ rest', Avoids (fun c => isDigit c || c == '.') rest' →
        Reads (readFraction (body ++ rest')) f rest' := by
  unfold readFraction at h
  split at h
  · next more =>
    obtain ⟨ds, hcs, hval, hds⟩ := exists_takeDigits more
    dsimp only at h
    split at h
    · simp at h
    · next hne =>
      simp only [reads_ok] at h
      obtain ⟨rfl, rfl⟩ := h
      -- A point without digits is refused.
      have hne' : ds ≠ [] := by
        rintro rfl
        rw [hval] at hne
        exact hne rfl
      refine ⟨'.' :: ds, congrArg ('.' :: ·) hcs, .inr ((endsVisibly_digits hne' hds).cons '.'),
        avoids_cons (by decide) _, fun rest' hrest' => ?_⟩
      have htake := takeDigits_append hds (hrest'.of_imp fun c hc => by simp [hc])
      simp [readFraction, htake, hval, hne']
  · simp only [reads_ok] at h
    obtain ⟨rfl, rfl⟩ := h
    refine ⟨[], rfl, .inl rfl, avoids_nil _, fun rest' hrest' => ?_⟩
    exact reads_readFraction_none (hrest'.of_imp fun c hc => by simp [hc])

theorem exponentSign_of_ne {cs : List Char} (hminus : ∀ more, cs ≠ '-' :: more)
    (hplus : ∀ more, cs ≠ '+' :: more) :
    exponentSign cs = (false, ⟨cs, Nat.le_refl _⟩) :=
  exponentSign.eq_3 cs hminus hplus

theorem exponentSign_digit {d : Char} (hd : isDigit d = true) (more : List Char) :
    exponentSign (d :: more) = (false, ⟨d :: more, Nat.le_refl _⟩) := by
  apply exponentSign_of_ne
  · rintro _ ⟨⟩
    cases hd
  · rintro _ ⟨⟩
    cases hd

/-- The sign of an exponent is read whatever digits follow. -/
theorem exponentSign_local (cs : List Char) :
    ∃ sign, cs = sign ++ (exponentSign cs).2.val ∧ ∀ d more, isDigit d = true →
      ∃ h, exponentSign (sign ++ d :: more) = ((exponentSign cs).1, ⟨d :: more, h⟩) := by
  fun_cases exponentSign cs with
  | case1 more => exact ⟨['-'], rfl, fun d more _ => ⟨_, rfl⟩⟩
  | case2 more => exact ⟨['+'], rfl, fun d more _ => ⟨_, rfl⟩⟩
  | case3 =>
    next hminus hplus =>
    rw [exponentSign_of_ne hminus hplus]
    exact ⟨[], rfl, fun d more hd => ⟨_, exponentSign_digit hd more⟩⟩

/-- Where no number goes on there is no exponent. -/
theorem reads_readExponent_none {cs : List Char} (h : Avoids isNumberPart cs) :
    Reads (readExponent cs) none cs := by
  unfold readExponent
  split
  · next mark more =>
    have hmark := h mark rfl
    simp only [isNumberPart, Bool.or_eq_false_iff, beq_eq_false_iff_ne] at hmark
    rw [if_neg (by simp [hmark])]
    simp
  · simp

/-- How an exponent is read depends on what follows only if that goes on with a part of a number. -/
theorem readExponent_local {cs rest : List Char} {e : Option (Bool × List Nat)}
    (h : Reads (readExponent cs) e rest) :
    ∃ body, cs = body ++ rest ∧ (body = [] ∨ EndsVisibly body) ∧
      Avoids (fun c => isDigit c || c == '.') body ∧
      ∀ rest', Avoids isNumberPart rest' → Reads (readExponent (body ++ rest')) e rest' := by
  unfold readExponent at h
  split at h
  · next mark more =>
    split at h
    · next hmark =>
      obtain ⟨sign, hsign, hsigned⟩ := exponentSign_local more
      obtain ⟨ds, hcs, hval, hds⟩ := exists_takeDigits (exponentSign more).2.val
      dsimp only at h
      split at h
      · simp at h
      · next hne =>
        simp only [reads_ok] at h
        obtain ⟨rfl, rfl⟩ := h
        cases ds with
        | nil =>
          rw [hval] at hne
          exact absurd rfl hne
        | cons d ds =>
          have hends := endsVisibly_digits (List.cons_ne_nil d ds) hds
          refine ⟨mark :: (sign ++ d :: ds), ?_, .inr ((hends.append_left sign).cons mark),
            avoids_cons (by rcases hmark with rfl | rfl <;> decide) _, fun rest' hrest' => ?_⟩
          · rw [List.cons_append, List.append_assoc, ← hcs, ← hsign]
          -- The sign is read by the first digit behind it, which stays the same.
          · obtain ⟨_, hsign'⟩ := hsigned d (ds ++ rest') (hds d List.mem_cons_self)
            have htake := takeDigits_append hds
              (hrest'.of_imp fun c hc => by simp [isNumberPart, hc])
            rw [List.cons_append] at htake
            rw [List.cons_append, List.append_assoc, List.cons_append, readExponent, if_pos hmark]
            simp [hsign', htake, hval]
    · simp only [reads_ok] at h
      obtain ⟨rfl, rfl⟩ := h
      exact ⟨[], rfl, .inl rfl, avoids_nil _, fun _ => reads_readExponent_none⟩
  · simp only [reads_ok] at h
    obtain ⟨rfl, rfl⟩ := h
    exact ⟨[], rfl, .inl rfl, avoids_nil _, fun _ => reads_readExponent_none⟩

/-- A strict reading of a number yields the value of the parts that were read. -/
theorem readNumber_local {negative : Bool} {cs rest : List Char} {v : Value}
    (h : Reads (readNumber true negative cs) v rest) :
    ∃ d body, cs = d :: body ++ rest ∧ isDigit d = true ∧ EndsVisibly (d :: body) ∧
      (∃ t : NumberText, t.value? = some v) ∧
      ∀ rest', Avoids isNumberPart rest' →
        Reads (readNumber true negative (d :: body ++ rest')) v rest' := by
  unfold readNumber at h
  obtain ⟨ds, hcs, hval, hds⟩ := exists_takeDigits cs
  dsimp only at h
  split at h
  · simp at h
  · next hne =>
    split at h
    · simp at h
    · next hzero =>
      obtain ⟨f, r₁, hf, hr₁, h⟩ := h.of_bind
      obtain ⟨e, r₂, he, hr₂, h⟩ := h.of_bind
      simp only at he h
      split at h
      · simp at h
      · next hvalue =>
        simp only [reads_pure] at h
        obtain ⟨rfl, rfl⟩ := h
        obtain ⟨fraction, hfraction, hends₁, havoid₁, hread₁⟩ := readFraction_local hf
        obtain ⟨exponent, hexponent, hends₂, havoid₂, hread₂⟩ := readExponent_local he
        cases ds with
        | nil =>
          rw [hval] at hne
          exact absurd rfl hne
        | cons d ds =>
          have hends := endsVisibly_digits (List.cons_ne_nil d ds) hds
          refine ⟨d, ds ++ (fraction ++ exponent), ?_, hds d List.mem_cons_self, ?_, ?_,
            fun rest' hrest' => ?_⟩
          · rw [hcs, hfraction, hexponent]
            simp
          · -- the number ends with the last of its parts that is there
            rcases hends₂ with rfl | hends₂
            · rcases hends₁ with rfl | hends₁
              · simpa using hends
              · simpa using (hends₁.append_left (d :: ds))
            · simpa using (hends₂.append_left (d :: ds ++ fraction))
          · rw [Bool.true_and, Bool.not_eq_true, Option.isNone_eq_false_iff,
              Option.isSome_iff_exists] at hvalue
            obtain ⟨v, hv⟩ := hvalue
            exact ⟨_, by rw [hv]; rfl⟩
          · -- each part is over where the next one starts, or where the new rest does
            have hrest₂ : Avoids (fun c => isDigit c || c == '.') (exponent ++ rest') :=
              havoid₂.append fun _ => hrest'.of_imp fun c hc => by
                simp only [isNumberPart, Bool.or_eq_true] at hc ⊢
                exact .inl (.inl hc)
            have hrest₁ : Avoids isDigit (fraction ++ (exponent ++ rest')) :=
              havoid₁.append fun _ => hrest₂.of_imp fun c hc => by simp [hc]
            have htake := takeDigits_append hds hrest₁
            have hassoc : d :: (ds ++ (fraction ++ exponent)) ++ rest' =
                d :: ds ++ (fraction ++ (exponent ++ rest')) := by simp
            rw [hval] at hne hzero hvalue
            rw [hassoc]
            have hread : Reads (readFraction
                (takeDigits (d :: ds ++ (fraction ++ (exponent ++ rest')))).2) f
                (exponent ++ rest') := by
              rw [htake]
              exact hread₁ _ hrest₂
            unfold readNumber
            simp only [htake, dif_neg hne, if_neg hzero, hval]
            refine hread.bind fun hr => ?_
            refine (hread₂ _ hrest').bind fun hr => ?_
            simp only [if_neg hvalue, reads_pure, and_self]

/-! ### Words -/

theorem readWord_local {value v : Value} : ∀ {word cs rest : List Char},
    Reads (readWord value word cs) v rest → v = value ∧ cs = word ++ rest ∧
      ∀ rest', Reads (readWord value word (word ++ rest')) v rest'
  | [], cs, rest, h => by
    simp only [readWord, reads_ok] at h
    obtain ⟨rfl, rfl⟩ := h
    exact ⟨rfl, rfl, fun rest' => by simp [readWord]⟩
  | w :: word, [], rest, h => by
    simp [readWord] at h
  | w :: word, c :: cs, rest, h => by
    rw [readWord] at h
    split at h
    · next hc =>
      obtain ⟨v', r, hv, hr, h⟩ := h.of_bind
      simp only [reads_pure] at h
      obtain ⟨rfl, rfl⟩ := h
      obtain ⟨hvalue, rfl, hread⟩ := readWord_local hv
      refine ⟨hvalue, by rw [hc]; rfl, fun rest' => ?_⟩
      rw [List.cons_append, readWord, if_pos rfl]
      refine (hread rest').bind fun hr => ?_
      simp
    · simp at h

end PolyLex.Json
