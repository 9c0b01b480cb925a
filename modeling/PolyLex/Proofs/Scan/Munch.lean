import PolyLex.Proofs.Scan.Advance
import PolyLex.Proofs.Scan.Rule

/-!
# The longest lexeme, and of equally long ones the first category

Every token that starts in normal mode is what the rules of the ten categories (`Category.Takes`)
make of the rest of its line: no category takes more, and the first that takes as much gives the
token its kind (`scan_munch`). Where none takes anything, one character becomes an error.

* `kind_claim?`: a claim has the kind that its category gives.
* `munch_claimAt`: the winning claim in terms of the rules.
-/

namespace PolyLex.Scan

open Text

/-! ### The rule for a place -/

/-- What the rules make of the rest of a line: the longest lexeme that a category takes, with the
kind that the first category to take it gives, or else one character in error. -/
inductive Munch (p : Profile) (rest : List Char) : Kind → List Char → Prop
  | lexeme {above below : List Category} {category : Category} {w : List Char} :
      Category.all = above ++ category :: below → w ≠ [] → category.Takes p rest w →
      (∀ other ∈ above, ¬ other.Takes p rest w) →
      (∀ (other : Category) (v : List Char), other.Takes p rest v → v.length ≤ w.length) →
      Munch p rest (category.kindOf p w) w
  | error {c : Char} {cs : List Char} : rest = c :: cs →
      (∀ (category : Category) (v : List Char), category.Takes p rest v → v = []) →
      Munch p rest .error [c]

/-! ### The kind of a claim -/

namespace Category

variable {p : Profile} {rest : List Char} {c : Claim}

theorem head?_take {n : Nat} (hn : 0 < n) (cs : List Char) : (cs.take n).head? = cs.head? := by
  cases n with
  | zero => exact absurd hn (Nat.lt_irrefl 0)
  | succ n =>
    cases cs <;> rfl

/-- A construct is of the kind with which it was opened. -/
theorem kind_openConstruct (kind : Kind) (escapes : Bool) (lead close text body : List Char)
    (mode : Mode) : (openConstruct kind escapes lead close text body mode).kind = kind := by
  rw [openConstruct]
  split <;> rfl

/-- The kind of a quoted text is that of its quote. -/
theorem kind_quotedClaim? (h : quotedClaim? p rest = some c) (hpos : 0 < c.length) :
    c.kind = quoted.kindOf p (rest.take c.length) := by
  simp only [quotedClaim?, Option.bind_eq_bind, Option.bind_eq_some_iff] at h
  obtain ⟨quote, hhead, kind, hkind, h⟩ := h
  have hc : c.kind = kind := by
    split at h <;> cases h <;> rfl
  rw [kindOf, head?_take hpos, hhead, Option.any_some, hc]
  unfold quoteKind? at hkind
  split at hkind
  · next hs =>
    cases hkind
    rw [if_pos hs]
  · next hs =>
    split at hkind
    · cases hkind
      rw [if_neg hs]
    · cases hkind

/-- The kind of a word is settled by the word alone. -/
theorem kind_wordClaim? (h : wordClaim? p rest = some c) :
    c.kind = word.kindOf p (rest.take c.length) := by
  obtain ⟨d, ds, rfl, -, rfl⟩ := wordClaim?_eq_some_iff.mp h
  rw [kindOf, List.length_cons, List.take_succ_cons,
    ← List.prefix_iff_eq_take.mp (List.takeWhile_prefix _)]
  simp only [wordKind, Profile.isKeyword, List.contains_iff_mem]

/-- A claim has the kind that its category makes of what is claimed. -/
theorem kind_claim? {category : Category} (h : category.claim? p rest = some c)
    (hpos : 0 < c.length) : c.kind = category.kindOf p (rest.take c.length) := by
  cases category with
  | blockComment =>
    obtain ⟨marks, -, body, -, rfl⟩ := blockCommentClaim?_eq_some_iff.mp h
    exact kind_openConstruct ..
  | lineComment =>
    obtain ⟨-, rfl⟩ := lineCommentClaim?_eq_some_iff.mp h
    rfl
  | blockString =>
    obtain ⟨delimiter, -, body, -, rfl⟩ := blockStringClaim?_eq_some_iff.mp h
    exact kind_openConstruct ..
  | quoted => exact kind_quotedClaim? h hpos
  | number =>
    obtain ⟨-, rfl⟩ := numberClaim?_eq_some_iff.mp h
    rfl
  | word => exact kind_wordClaim? h
  | operator =>
    obtain ⟨op, -, rfl⟩ := operatorClaim?_eq_some_iff.mp h
    rfl
  | punctuation =>
    obtain ⟨-, -, -, -, rfl⟩ := singleClaim?_eq_some_iff.mp h
    rfl
  | delimiter =>
    obtain ⟨-, -, -, -, rfl⟩ := singleClaim?_eq_some_iff.mp h
    rfl
  | whitespace =>
    cases h
    rfl

end Category

/-! ### The winner by the rules -/

/-- The winning claim takes what the rules make of the text. -/
theorem munch_claimAt {p : Profile} (hp : p.WellMarked) {rest : List Char} (hrest : rest ≠ []) :
    Munch p rest (claimAt p rest).kind (rest.take (claimAt p rest).length) := by
  -- What is taken is not longer than the winning claim, since it is claimed.
  have htaken : ∀ {category : Category} {v : List Char}, category.Takes p rest v →
      v.length ≤ reach (longestClaim? Category.all p rest) := by
    intro category v hv
    by_cases hne : v = []
    · rw [hne]
      exact Nat.zero_le _
    · obtain ⟨d, hd, rfl⟩ := (Category.takes_iff_claim? hp hne).mp hv
      have hle := length_le_reach category.mem_all hd
      rw [List.length_take]
      omega
  rw [claimAt]
  cases hwin : longestClaim? Category.all p rest with
  | none =>
    obtain ⟨c, cs, rfl⟩ := List.exists_cons_of_ne_nil hrest
    refine .error rfl fun category v hv => ?_
    have hle := htaken hv
    rw [hwin] at hle
    exact List.length_eq_zero_iff.mp (Nat.le_zero.mp hle)
  | some c =>
    obtain ⟨above, category, below, hsplit, hc, hlt⟩ := exists_of_longestClaim? hwin
    have hpos := length_pos_of_longestClaim? hwin
    have hlen : (rest.take c.length).length = c.length := by
      rw [List.length_take]
      exact Nat.min_eq_left (sound_claim? hc).length_le
    have hne : rest.take c.length ≠ [] := by
      rw [← List.length_pos_iff, hlen]
      exact hpos
    show Munch p rest c.kind (rest.take c.length)
    rw [Category.kind_claim? hc hpos]
    -- A category above that takes as much would have been kept.
    refine .lexeme hsplit hne ((Category.takes_iff_claim? hp hne).mpr ⟨c, hc, rfl⟩) ?_ ?_
    · intro other hother htakes
      obtain ⟨d, hd, heq⟩ := (Category.takes_iff_claim? hp hne).mp htakes
      have hd_le := length_le_reach hother hd
      have hd_fits := (sound_claim? hd).length_le
      have := congrArg List.length heq
      rw [hlen, List.length_take] at this
      omega
    · intro other v hv
      have hle := htaken hv
      rw [hwin] at hle
      rw [hlen]
      exact hle

/-! ### The tokens of a source -/

/-- Maximal munch with fixed priority: each token that starts in normal mode is what the rules make
of the rest of its line. -/
theorem scan_munch :
    (∀ l : Language, l.profile.WellMarked) ∧
    ∀ p : Profile, p.WellMarked → ∀ (source : String) (before after : List Piece) (t : Piece),
      p.pieces source = before ++ t :: after → t.start.mode = .normal →
        (p.scan source).tokens = (before ++ t :: after).map Piece.token ∧
        Munch p (firstLine (source.toList.drop (Piece.joined before).length)).1 t.kind
          t.lexeme := by
  refine ⟨Language.wellMarked_profile, fun p hp source before after t hsplit hmode => ⟨?_, ?_⟩⟩
  · rw [Profile.tokens_scan, hsplit]
  · obtain ⟨hleft, -, hadvance, -⟩ := Cursor.piece_eq_advance (Cursor.fits_start p) hsplit
    have hmunch := munch_claimAt hp (firstLine_ne_nil hleft)
    rw [hadvance]
    simp only [Cursor.advance, Cursor.claimOn, hmode]
    exact hmunch

/-- In C++ the two colons are one operator, though each is punctuation by itself. -/
theorem scan_munch_colons :
    Language.cpp.profile.pieces "a::b" =
      [⟨{}, .identifier, ['a']⟩] ++ ⟨{ column := 2 }, .operator, [':', ':']⟩ ::
        [⟨{ column := 4 }, .identifier, ['b']⟩] ∧
    Munch Language.cpp.profile [':', ':', 'b'] .operator [':', ':'] := by
  have hcut : Cursor.cutSteps Language.cpp.profile 3 {} "a::b".toList =
      some ([⟨{}, .identifier, ['a']⟩] ++ ⟨{ column := 2 }, .operator, [':', ':']⟩ ::
        [⟨{ column := 4 }, .identifier, ['b']⟩]) := by decide +kernel
  have hpieces := Cursor.cutText_of_cutSteps (Cursor.fits_start Language.cpp.profile) hcut
  have hrest : (firstLine ("a::b".toList.drop
      (Piece.joined [⟨{}, .identifier, ['a']⟩]).length)).1 = [':', ':', 'b'] := by decide +kernel
  have hmunch := (scan_munch.2 _ Language.cpp.wellMarked_profile _ _ _ _ hpieces rfl).2
  rw [hrest] at hmunch
  exact ⟨hpieces, hmunch⟩

end PolyLex.Scan
