import Mathlib.Data.List.Induction
import PolyLex.Proofs.Language.WellFormed
import PolyLex.Proofs.Scan.Close
import PolyLex.Proofs.Scan.Number
import PolyLex.Scan.Cursor

/-!
# What every claim keeps to

Whatever its category, a claim lies within the text it is made on, and it leaves the scanner in a
mode that the profile has a construct for; if it leaves a construct open, it takes all of the text
(`Claim.Sound`). `sound_claim?` says so of each category and `sound_claimAt` of the claim that wins,
so later proofs need not look into the categories again.
-/

namespace PolyLex.Scan

open Text

/-- The profile has the construct that the mode is in the middle of. -/
def Mode.FitsIn (p : Profile) : Mode → Prop
  | .normal => True
  | .blockComment => p.blockComment.isSome = true
  | .blockString delimiter => delimiter ∈ p.blockStrings

/-- The claim can be granted on a text. -/
structure Claim.Sound (p : Profile) (rest : List Char) (c : Claim) : Prop where
  length_le : c.length ≤ rest.length
  fits : c.next.FitsIn p
  all_of_open : c.next ≠ .normal → c.length = rest.length

/-- A claim that opens nothing only has to lie within its text. -/
theorem Claim.Sound.of_normal {p : Profile} {rest : List Char} {c : Claim}
    (hnext : c.next = .normal) (hle : c.length ≤ rest.length) : c.Sound p rest where
  length_le := hle
  fits := by
    rw [hnext]
    exact trivial
  all_of_open h := absurd hnext h

/-! ### What each category claims -/

namespace Category

variable {p : Profile} {rest : List Char} {c : Claim}

/-- A block comment is claimed where its opening mark stands. -/
theorem blockCommentClaim?_eq_some_iff : blockCommentClaim? p rest = some c ↔
    ∃ marks ∈ p.blockComment, ∃ body, rest = marks.1.toList ++ body ∧
      c = openConstruct .comment false marks.1.toList marks.2.toList rest body .blockComment := by
  simp only [blockCommentClaim?, Option.bind_eq_bind, Option.bind_eq_some_iff,
    after?_eq_some_iff, Option.pure_def, Option.some.injEq, Option.mem_def, @eq_comm _ c]

/-- A line comment is claimed where one of its marks stands, up to the end of the line. -/
theorem lineCommentClaim?_eq_some_iff : lineCommentClaim? p rest = some c ↔
    (∃ marker ∈ p.lineComments, marker.toList <+: rest) ∧
      c = { kind := .comment, length := (content rest).length } := by
  simp only [lineCommentClaim?, Option.ite_none_right_eq_some, List.any_eq_true, startsWith_iff,
    Option.some.injEq, @eq_comm _ c]

/-- A block string is claimed where a delimiter stands, by the first one listed that does. -/
theorem blockStringClaim?_eq_some_iff : blockStringClaim? p rest = some c ↔
    ∃ delimiter, p.blockStrings.find? (fun d => startsWith d.toList rest) = some delimiter ∧
      ∃ body, rest = delimiter.toList ++ body ∧
        c = openConstruct .string true delimiter.toList delimiter.toList rest body
          (.blockString delimiter) := by
  simp only [blockStringClaim?, Option.bind_eq_bind, Option.bind_eq_some_iff,
    after?_eq_some_iff, Option.pure_def, Option.some.injEq, @eq_comm _ c]

/-- A number is claimed where one has a length. -/
theorem numberClaim?_eq_some_iff : numberClaim? rest = some c ↔
    numberLength rest ≠ 0 ∧ c = { kind := .number, length := numberLength rest } := by
  simp only [numberClaim?, Option.ite_none_left_eq_some, Option.some.injEq, @eq_comm _ c]

/-- A word is claimed where a character that may start one stands. -/
theorem wordClaim?_eq_some_iff : wordClaim? p rest = some c ↔
    ∃ d ds, rest = d :: ds ∧ p.isWordStart d = true ∧
      c = { kind := wordKind p (d :: ds.takeWhile p.isWordPart)
            length := (d :: ds.takeWhile p.isWordPart).length } := by
  cases rest with
  | nil => simp [wordClaim?]
  | cons d ds =>
    simp only [wordClaim?, Option.ite_none_right_eq_some, Option.some.injEq, List.cons.injEq]
    constructor
    · rintro ⟨hstart, rfl⟩
      exact ⟨d, ds, ⟨rfl, rfl⟩, hstart, rfl⟩
    · rintro ⟨_, _, ⟨rfl, rfl⟩, hstart, rfl⟩
      exact ⟨hstart, rfl⟩

/-- An operator is claimed where one stands, by the first one listed that does. -/
theorem operatorClaim?_eq_some_iff : operatorClaim? p rest = some c ↔
    ∃ op, p.operators.find? (fun op => startsWith op.toList rest) = some op ∧
      c = { kind := .operator, length := op.length } := by
  simp only [operatorClaim?, Option.bind_eq_bind, Option.bind_eq_some_iff, Option.pure_def,
    Option.some.injEq, @eq_comm _ c]

/-- A single character is claimed where the table has it. -/
theorem singleClaim?_eq_some_iff {kind : Kind} {table : List Char} :
    singleClaim? kind table rest = some c ↔
      ∃ d ∈ table, ∃ ds, rest = d :: ds ∧ c = { kind, length := 1 } := by
  cases rest with
  | nil => simp [singleClaim?]
  | cons d ds =>
    simp only [singleClaim?, List.head?_cons, Option.bind_eq_bind, Option.bind_some,
      List.contains_iff_mem, Option.pure_def, Option.ite_none_right_eq_some, Option.some.injEq,
      List.cons.injEq]
    constructor
    · rintro ⟨hmem, rfl⟩
      exact ⟨d, hmem, ds, ⟨rfl, rfl⟩, rfl⟩
    · rintro ⟨_, hmem, _, ⟨rfl, rfl⟩, rfl⟩
      exact ⟨hmem, rfl⟩

end Category

/-! ### The categories -/

/-- A construct that opens takes one character at least and leaves a mode that fits. -/
theorem sound_openConstruct {p : Profile} {mode : Mode} (hmode : mode.FitsIn p) (kind : Kind)
    (escapes : Bool) (lead close body : List Char) :
    (Category.openConstruct kind escapes lead close (lead ++ body) body mode).Sound p
      (lead ++ body) := by
  rw [Category.openConstruct]
  split
  · next n hn =>
    apply Claim.Sound.of_normal rfl
    have := closeEnd?_le hn
    rw [List.length_append]
    show lead.length + n ≤ _
    omega
  · exact ⟨Nat.le_refl _, hmode, fun _ => rfl⟩

theorem sound_quotedClaim? {p : Profile} {rest : List Char} {c : Claim}
    (h : Category.quotedClaim? p rest = some c) : c.Sound p rest := by
  have hle := (content_isPrefix rest).length_le
  simp only [Category.quotedClaim?, Option.bind_eq_bind, Option.bind_eq_some_iff] at h
  obtain ⟨quote, -, kind, -, h⟩ := h
  split at h
  · next n hn =>
    cases h
    apply Claim.Sound.of_normal rfl
    show n + 1 ≤ _
    cases hline : content rest with
    | nil =>
      rw [hline] at hn
      cases hn
    | cons d ds =>
      rw [hline] at hn hle
      have := closeEnd?_le hn
      simp only [List.tail_cons, List.length_cons] at this hle
      omega
  · cases h
    exact .of_normal rfl hle

theorem sound_singleClaim? {p : Profile} {kind : Kind} {table rest : List Char} {c : Claim}
    (h : Category.singleClaim? kind table rest = some c) : c.Sound p rest := by
  obtain ⟨d, -, ds, rfl, rfl⟩ := Category.singleClaim?_eq_some_iff.mp h
  exact .of_normal rfl (Nat.succ_le_succ (Nat.zero_le _))

/-- Whatever a category claims is not empty and leaves a mode that fits. -/
theorem sound_claim? {p : Profile} {rest : List Char} {category : Category} {c : Claim}
    (h : category.claim? p rest = some c) : c.Sound p rest := by
  cases category with
  | blockComment =>
    obtain ⟨marks, hmarks, body, rfl, rfl⟩ := Category.blockCommentClaim?_eq_some_iff.mp h
    have hmode : Mode.FitsIn p .blockComment := Option.isSome_of_mem hmarks
    exact sound_openConstruct hmode ..
  | lineComment =>
    obtain ⟨-, rfl⟩ := Category.lineCommentClaim?_eq_some_iff.mp h
    exact .of_normal rfl (content_isPrefix rest).length_le
  | blockString =>
    obtain ⟨delimiter, hfind, body, rfl, rfl⟩ := Category.blockStringClaim?_eq_some_iff.mp h
    have hmode : Mode.FitsIn p (.blockString delimiter) := List.mem_of_find?_eq_some hfind
    exact sound_openConstruct hmode ..
  | quoted => exact sound_quotedClaim? h
  | number =>
    obtain ⟨-, rfl⟩ := Category.numberClaim?_eq_some_iff.mp h
    exact .of_normal rfl (numberLength_le rest)
  | word =>
    obtain ⟨d, ds, rfl, -, rfl⟩ := Category.wordClaim?_eq_some_iff.mp h
    exact .of_normal rfl (Nat.succ_le_succ (List.takeWhile_prefix _).length_le)
  | operator =>
    obtain ⟨op, hop, rfl⟩ := Category.operatorClaim?_eq_some_iff.mp h
    have hstarts : startsWith op.toList rest = true := by
      simpa using List.find?_some hop
    exact .of_normal rfl (startsWith_iff.mp hstarts).length_le
  | punctuation => exact sound_singleClaim? h
  | delimiter => exact sound_singleClaim? h
  | whitespace =>
    cases h
    exact .of_normal rfl (runLength_le isBlank rest)

/-- What opens a literal is a quote of the profile. -/
theorem Category.mem_of_quoteKind? {p : Profile} {quote : Char} {kind : Kind}
    (h : quoteKind? p quote = some kind) : quote ∈ p.quotes := by
  unfold quoteKind? at h
  split at h
  · next hs => exact List.mem_append_left _ (List.contains_iff_mem.mp hs)
  · split at h
    · next hc => exact List.mem_append_right _ (List.contains_iff_mem.mp hc)
    · cases h

/-! ### The winner -/

/-- How far a claim reaches; no claim reaches nowhere. -/
def reach (claim : Option Claim) : Nat := (claim.map Claim.length).getD 0

/-- The longer of two claims reaches as far as both. -/
theorem reach_longer (best claim : Option Claim) :
    reach (Claim.longer best claim) = max (reach best) (reach claim) := by
  unfold Claim.longer
  cases claim with
  | none => exact (Nat.max_eq_left (Nat.zero_le _)).symm
  | some c =>
    show reach (if reach best < c.length then some c else best) = max (reach best) c.length
    split
    · next hlt => exact (Nat.max_eq_right (Nat.le_of_lt hlt)).symm
    · next hle => exact (Nat.max_eq_left (Nat.not_lt.mp hle)).symm

theorem longer_eq_some {best claim : Option Claim} {c : Claim}
    (h : Claim.longer best claim = some c) : best = some c ∨ claim = some c := by
  unfold Claim.longer at h
  split at h
  · exact .inl h
  · split at h
    · exact .inr h
    · exact .inl h

/-- The category listed last is compared with the longest claim of the others. -/
theorem longestClaim?_append (categories : List Category) (last : Category) (p : Profile)
    (rest : List Char) : longestClaim? (categories ++ [last]) p rest =
      Claim.longer (longestClaim? categories p rest) (last.claim? p rest) := by
  rw [longestClaim?, List.foldl_append]
  rfl

theorem Category.mem_all (category : Category) : category ∈ Category.all := by
  cases category <;> decide

/-- No claim reaches farther than the winner. -/
theorem length_le_reach {categories : List Category} {p : Profile} {rest : List Char}
    {category : Category} {c : Claim} (hmem : category ∈ categories)
    (hc : category.claim? p rest = some c) :
    c.length ≤ reach (longestClaim? categories p rest) := by
  induction categories using List.reverseRecOn with
  | nil => cases hmem
  | append_singleton categories last ih =>
    rw [longestClaim?_append, reach_longer]
    rcases List.mem_append.mp hmem with hmem | hmem
    · exact Nat.le_trans (ih hmem) (Nat.le_max_left _ _)
    · rw [← List.mem_singleton.mp hmem, hc]
      exact Nat.le_max_right _ _

/-- The claim that wins is the claim of a category, and those above it do not reach as far. -/
theorem exists_of_longestClaim? {categories : List Category} {p : Profile} {rest : List Char}
    {c : Claim} (h : longestClaim? categories p rest = some c) :
    ∃ above category below, categories = above ++ category :: below ∧
      category.claim? p rest = some c ∧ reach (longestClaim? above p rest) < c.length := by
  induction categories using List.reverseRecOn with
  | nil => cases h
  | append_singleton categories last ih =>
    -- Either the winner so far stays, with one more category below it, or the last one wins.
    have hkeep : longestClaim? categories p rest = some c →
        ∃ above category below, categories ++ [last] = above ++ category :: below ∧
          category.claim? p rest = some c ∧ reach (longestClaim? above p rest) < c.length := by
      intro hbest
      obtain ⟨above, category, below, rfl, hc, hlt⟩ := ih hbest
      exact ⟨above, category, below ++ [last], by simp, hc, hlt⟩
    rw [longestClaim?_append] at h
    unfold Claim.longer at h
    split at h
    · exact hkeep h
    · next d hd =>
      split at h
      · next hlt =>
        cases h
        exact ⟨categories, last, [], rfl, hd, hlt⟩
      · exact hkeep h

/-! ### Measuring claims in another way -/

/-- The claim with its length measured in another way. -/
def Claim.measured (g : Nat → Nat) (c : Claim) : Claim := { c with length := g c.length }

/-- A claim lies within its text. -/
def Within (rest : List Char) (claim : Option Claim) : Prop := ∀ c ∈ claim, c.length ≤ rest.length

theorem within_claim? (p : Profile) (rest : List Char) (category : Category) :
    Within rest (category.claim? p rest) :=
  fun _ hc => (sound_claim? hc).length_le

theorem within_longer {rest : List Char} {best claim : Option Claim} (hbest : Within rest best)
    (hclaim : Within rest claim) : Within rest (Claim.longer best claim) := by
  intro c hc
  rcases longer_eq_some hc with h | h
  · exact hbest c h
  · exact hclaim c h

/-- A measure by which the longer opening of a text stays the longer one changes no winner. -/
theorem longer_measured {g : Nat → Nat} {rest : List Char} {best claim : Option Claim}
    (hzero : g 0 = 0)
    (hg : ∀ {m n : Nat}, m ≤ rest.length → n ≤ rest.length → (g m < g n ↔ m < n))
    (hbest : Within rest best) (hclaim : Within rest claim) :
    Claim.longer (best.map (.measured g)) (claim.map (.measured g)) =
      (Claim.longer best claim).map (.measured g) := by
  cases claim with
  | none => rfl
  | some c =>
    have hc : c.length ≤ rest.length := hclaim c rfl
    -- Any measure that grows with the length decides between claims as the length does.
    have hiff : ((best.map (.measured g)).map Claim.length).getD 0 < (c.measured g).length ↔
        (best.map Claim.length).getD 0 < c.length := by
      cases best with
      | none =>
        show 0 < g c.length ↔ 0 < c.length
        rw [← hg (Nat.zero_le _) hc, hzero]
      | some b => exact hg (hbest b rfl) hc
    simp only [Claim.longer, Option.map_some]
    by_cases hlt : (best.map Claim.length).getD 0 < c.length
    · rw [if_pos hlt, if_pos (hiff.mpr hlt), Option.map_some]
    · rw [if_neg hlt, if_neg fun h => hlt (hiff.mp h)]

/-- If the claims on one text are those on another, measured in another way, so is the winner. -/
theorem longestClaim?_measured {p : Profile} {g : Nat → Nat} {rest rest' : List Char}
    (hzero : g 0 = 0)
    (hg : ∀ {m n : Nat}, m ≤ rest.length → n ≤ rest.length → (g m < g n ↔ m < n))
    (hclaims : ∀ category : Category,
      category.claim? p rest' = (category.claim? p rest).map (.measured g))
    (categories : List Category) :
    longestClaim? categories p rest' = (longestClaim? categories p rest).map (.measured g) ∧
      Within rest (longestClaim? categories p rest) := by
  induction categories using List.reverseRecOn with
  | nil => exact ⟨rfl, fun c hc => by cases hc⟩
  | append_singleton categories last ih =>
    obtain ⟨hmap, hwithin⟩ := ih
    have hlast := within_claim? p rest last
    rw [longestClaim?_append, longestClaim?_append, hmap, hclaims]
    exact ⟨longer_measured hzero hg hwithin hlast, within_longer hwithin hlast⟩

/-- At every text that is not empty, what is cut is not empty and leaves a mode that fits. -/
theorem sound_claimAt (p : Profile) {rest : List Char} (hrest : rest ≠ []) :
    (claimAt p rest).Sound p rest := by
  rw [claimAt]
  cases h : longestClaim? Category.all p rest with
  | none => exact .of_normal rfl (List.length_pos_iff.mpr hrest)
  | some c =>
    obtain ⟨-, category, -, -, hc, -⟩ := exists_of_longestClaim? h
    exact sound_claim? hc

end PolyLex.Scan
