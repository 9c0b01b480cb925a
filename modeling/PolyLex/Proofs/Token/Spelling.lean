import PolyLex.Proofs.Text.Ends
import PolyLex.Token.Kind

/-!
# Spellings of names

The name of a known kind may be written in letters of either case and with white space around it,
and the name of any other kind is kept as it stands. `Kind.IsNamed` is that rule, by what is left of
a name without the white space around it (`Text.Trimmed`); a name is read by it and in no other way
(`Kind.ofName_eq_iff`).

`Text.Alike` says that two texts differ in case and in white space around them at most. Such texts
are folded to one (`Kind.fold_eq_of_alike`), so if one of them names a known kind, the other names
the same (`Kind.Respelled.ofName_eq`). Of any other kind every change makes another name.
-/

namespace PolyLex

namespace Text

/-- The texts differ in the case of basic letters and in white space around them at most. -/
inductive Alike (s s' : String) : Prop
  | intro {before core after before' core' after' : List Char} :
      s.toList = before ++ (core ++ after) → s'.toList = before' ++ (core' ++ after') →
      (∀ c ∈ before ++ after, isBlank c = true) → (∀ c ∈ before' ++ after', isBlank c = true) →
      core.map lowerAscii = core'.map lowerAscii → Alike s s'

/-- White space has no case. -/
theorem isBlank_lowerAscii (c : Char) : isBlank (lowerAscii c) = isBlank c := by
  have hcapital : ∀ n < 0x5B, 0x41 ≤ n →
      isBlank (lowerAscii (Char.ofNat n)) = isBlank (Char.ofNat n) := by decide
  by_cases hc : ('A' ≤ c && c ≤ 'Z') = true
  · rw [Bool.and_eq_true, decide_eq_true_eq, decide_eq_true_eq] at hc
    have hlow : 0x41 ≤ c.toNat := UInt32.le_iff_toNat_le.mp hc.1
    have hhigh : c.toNat ≤ 0x5A := UInt32.le_iff_toNat_le.mp hc.2
    have h := hcapital c.toNat (Nat.lt_succ_of_le hhigh) hlow
    rwa [Char.ofNat_toNat] at h
  · rw [lowerAscii, if_neg hc]

/-- Blanks can be trimmed before letters are lowered or after. -/
theorem trimBy_map_lowerAscii (cs : List Char) :
    trimBy isBlank (cs.map lowerAscii) = (trimBy isBlank cs).map lowerAscii := by
  have hclass : isBlank ∘ lowerAscii = isBlank := funext isBlank_lowerAscii
  simp only [trimBy, dropEndWhile, List.dropWhile_map, ← List.map_reverse, hclass]

/-- Blanks around a text are trimmed with whatever blanks the text itself has at its ends. -/
theorem trimBy_blanks {before after : List Char} (h : ∀ c ∈ before ++ after, isBlank c = true)
    (core : List Char) : trimBy isBlank (before ++ (core ++ after)) = trimBy isBlank core := by
  obtain ⟨hbefore, hafter⟩ := List.forall_mem_append.mp h
  rw [trimBy, List.dropWhile_append_of_pos hbefore, List.dropWhile_append]
  split
  · next hempty =>
    rw [trimBy, List.isEmpty_iff.mp hempty, List.dropWhile_eq_nil_iff.mpr hafter]
  · exact dropEndWhile_append_of_all hafter _

/-- What is left of a text without the white space around it. -/
structure Trimmed (cs core : List Char) : Prop where
  around : ∃ before after, cs = before ++ (core ++ after) ∧ ∀ c ∈ before ++ after, isBlank c = true
  start : Avoids isBlank core
  stop : ∀ c ∈ core.getLast?, isBlank c = false

/-- Trimming finds the core of a text, the one that blanks surround. -/
theorem trimBy_eq_iff {cs core : List Char} : trimBy isBlank cs = core ↔ Trimmed cs core := by
  constructor
  · intro h
    subst h
    obtain ⟨before, hcs, -, hbefore, hstart⟩ := exists_dropWhile isBlank cs
    obtain ⟨after, hrest, hafter, hstop⟩ := exists_dropEndWhile isBlank (cs.dropWhile isBlank)
    refine ⟨⟨before, after, ?_, List.forall_mem_append.mpr ⟨hbefore, hafter⟩⟩, ?_, hstop⟩
    · rw [trimBy, ← hrest]
      exact hcs
    · -- What is left starts where the text starts without its opening, unless nothing is left.
      intro c hc
      rw [trimBy, Option.mem_def] at hc
      refine hstart c ?_
      rw [hrest, Option.mem_def, List.head?_append, hc, Option.some_or]
  · rintro ⟨⟨before, after, rfl, hblank⟩, hstart, hstop⟩
    rw [trimBy_blanks hblank, trimBy, dropWhile_of_avoids hstart, dropEndWhile_of_getLast? hstop]

end Text

namespace Kind

open Text

theorem fold_eq (name : String) :
    fold name = String.ofList (trimBy isBlank (name.toList.map lowerAscii)) := by
  rw [trimBy_map_lowerAscii, fold, lowerAsciiText, trim, String.toList_ofList]

/-- Spellings that differ in blanks and case fold to one text. -/
theorem fold_eq_of_alike {name name' : String} (h : Alike name name') : fold name = fold name' := by
  cases h with
  | @intro before core after before' core' after' hs hs' hblank hblank' hcore =>
    have hfold : ∀ {s : String} {before core after : List Char},
        s.toList = before ++ (core ++ after) → (∀ c ∈ before ++ after, isBlank c = true) →
        fold s = String.ofList (trimBy isBlank (core.map lowerAscii)) := by
      intro s before core after hs hblank
      rw [fold_eq, trimBy_map_lowerAscii, hs, trimBy_blanks hblank, ← trimBy_map_lowerAscii]
    rw [hfold hs hblank, hfold hs' hblank', hcore]

/-! ### How names are read -/

/-- The name is that of the kind but for the case of its letters and white space around it. -/
def Spells (name : String) (kind : Kind) : Prop :=
  ∃ core, Trimmed name.toList core ∧ core.map lowerAscii = kind.name.toList

/-- What a name stands for: a known kind that it spells, or else itself. -/
inductive IsNamed (name : String) : Kind → Prop
  | known {kind : Kind} : kind ∈ known → Spells name kind → IsNamed name kind
  | other : (∀ kind ∈ known, ¬ Spells name kind) → IsNamed name (other name)

/-- A spelling folds to the name of a kind that it spells. -/
theorem fold_eq_name_iff {name : String} {kind : Kind} :
    fold name = kind.name ↔ Spells name kind := by
  rw [fold, lowerAsciiText, trim, String.toList_ofList, ← String.toList_inj, String.toList_ofList]
  constructor
  · intro h
    exact ⟨_, trimBy_eq_iff.mp rfl, h⟩
  · rintro ⟨core, hcore, h⟩
    rw [trimBy_eq_iff.mpr hcore]
    exact h

/-- A name is read as the known kind that it spells, and kept as it stands if it spells none. -/
theorem isNamed_ofName (name : String) : IsNamed name (ofName name) := by
  unfold ofName
  cases hfind : known.find? fun kind => kind.name == fold name with
  | none =>
    refine .other fun kind hkind hspells => ?_
    have hne := List.find?_eq_none.mp hfind kind hkind
    exact hne (beq_iff_eq.mpr (fold_eq_name_iff.mpr hspells).symm)
  | some kind =>
    have hname := List.find?_some hfind
    rw [beq_iff_eq] at hname
    exact .known (List.mem_of_find?_eq_some hfind) (fold_eq_name_iff.mp hname.symm)

/-- No name spells two kinds, and a name that spells a kind does not stand for itself. -/
theorem IsNamed.unique {name : String} {kind kind' : Kind} (h : IsNamed name kind)
    (h' : IsNamed name kind') : kind = kind' := by
  cases h with
  | known hkind hspells =>
    cases h' with
    | known hkind' hspells' =>
      have hname : kind.name = kind'.name :=
        (fold_eq_name_iff.mpr hspells).symm.trans (fold_eq_name_iff.mpr hspells')
      rw [← ofName_name_of_isKnown (isKnown_of_mem hkind), hname,
        ofName_name_of_isKnown (isKnown_of_mem hkind')]
    | other hnone => exact absurd hspells (hnone kind hkind)
  | other hnone =>
    cases h' with
    | known hkind' hspells' => exact absurd hspells' (hnone kind' hkind')
    | other => rfl

/-- The reader of names finds the kind that the text names. -/
theorem ofName_eq_iff {name : String} {kind : Kind} :
    ofName name = kind ↔ IsNamed name kind := by
  constructor
  · rintro rfl
    exact isNamed_ofName name
  · exact (isNamed_ofName name).unique

/-! ### Other spellings -/

/-- The second name is another spelling of the first: they are alike and name a known kind, or they
are the same. -/
inductive Respelled (name : String) : String → Prop
  | same : Respelled name name
  | alike {name' : String} : (ofName name).isKnown = true → Alike name name' → Respelled name name'

/-- A respelled name is read as the same kind. -/
theorem Respelled.ofName_eq {name name' : String} (h : Respelled name name') :
    ofName name' = ofName name := by
  cases h with
  | same => rfl
  | alike hknown halike =>
    unfold ofName at hknown ⊢
    rw [← fold_eq_of_alike halike]
    cases hfind : known.find? fun kind => kind.name == fold name with
    | some kind => rfl
    | none =>
      rw [hfind] at hknown
      cases hknown

/-- A blank text names no known kind. -/
theorem visible_of_isKnown_ofName {name : String} (h : (ofName name).isKnown = true) :
    ∃ c ∈ name.toList, isBlank c = false := by
  cases hblank : isBlankText name with
  | false => simpa using List.all_eq_false.mp hblank
  | true =>
    have hfold : fold name = "" := by
      rw [fold, trim, trimBy_eq_nil_iff.mpr (List.all_eq_true.mp hblank)]
      rfl
    have hother : ofName name = other name := by
      rw [ofName, hfold]
      rfl
    rw [hother] at h
    cases h

end Kind

end PolyLex
