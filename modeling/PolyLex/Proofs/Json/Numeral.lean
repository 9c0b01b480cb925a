import PolyLex.Proofs.Json.Printing
import PolyLex.Proofs.Numeric.Layout

/-!
# Floating numbers within documents

A floating number is written by its own layout, and which number is read of that text is a question
of its own. Whatever it is when the text stands alone, it is the same wherever the text stands in a
document (`readsAs_real`).
-/

namespace PolyLex.Json

open Numeric Text

/-- What is read strictly is also read where a number beyond the doubles is no fault. -/
theorem reads_readNumber_of_strict {strict negative : Bool} {cs rest : List Char} {v : Value}
    (h : Reads (readNumber true negative cs) v rest) : Reads (readNumber strict negative cs) v rest := by
  cases strict with
  | true => exact h
  | false =>
    unfold readNumber at h ⊢
    dsimp only at h ⊢
    split at h
    · simp at h
    · next hne =>
      rw [dif_neg hne]
      split at h
      · simp at h
      · next hzero =>
        rw [if_neg hzero]
        obtain ⟨f, r₁, hf, _, h⟩ := h.of_bind
        obtain ⟨e, r₂, he, _, h⟩ := h.of_bind
        split at h
        · simp at h
        -- The strict reader has checked the range, the other does not ask.
        · refine hf.bind fun _ => he.bind fun _ => ?_
          simpa using h

/-- A number has no members to bring into order. -/
theorem settled_of_value? {t : NumberText} {v : Value} (h : t.value? = some v) : v.settled = v := by
  -- Numbers have no members, so there is nothing to settle.
  have hreal : ∀ {negative significand exponent}, NumberText.real? negative significand exponent =
      some v → v.settled = v := by
    intro _ _ _ hv
    obtain ⟨x, -, rfl⟩ := Option.map_eq_some_iff.mp hv
    rfl
  unfold NumberText.value? at h
  dsimp only at h
  split at h
  · split at h
    · cases h
      rfl
    · split at h
      · exact hreal h
      · cases h
        rfl
  · unfold NumberText.realValue? at h
    dsimp only at h
    split at h
    · exact hreal h
    · split at h
      · split at h
        · cases h
        · cases h
          rfl
      · exact hreal h

theorem isGap_of_isNumeralPart {c : Char} (h : isNumeralPart c = true) : isGap c = false := by
  cases hgap : isGap c with
  | false => rfl
  | true =>
    simp only [isGap, Bool.or_eq_true, beq_iff_eq] at hgap
    rcases hgap with ((rfl | rfl) | rfl) | rfl <;> cases h

/-- A numeral that is a document by itself is a number, and it is read as that number wherever it
stands. -/
theorem exists_of_parse_numeral {text : String} (htext : Numeral text) {v : Value}
    (h : parse text = .ok v) (strict : Bool) (depth : Nat) {rest : List Char}
    (hrest : Avoids isNumberPart rest) : ∃ c after, text.toList ++ rest = c :: after ∧
      ReadsFrom strict (innerReader strict depth) c after v rest := by
  obtain ⟨w, r, hread, hgap, rfl⟩ := parse_ok_iff.mp h
  obtain ⟨c, after, hskip, hfrom⟩ := reads_readValue_iff.mp hread
  have hstart : Avoids isGap text.toList := fun d hd =>
    isGap_of_isNumeralPart (htext d (List.mem_of_mem_head? hd))
  have htoList : text.toList = c :: after := by
    rw [← hskip]
    exact (dropWhile_of_avoids hstart).symm
  -- no gap follows the number, since a numeral holds none
  have hend : ∀ body, after = body ++ r → r = [] := by
    intro body hbody
    cases hr : r with
    | nil => rfl
    | cons d r' =>
      have hd : d ∈ text.toList := by
        rw [htoList, hbody, hr]
        simp
      have hnext : skipGap r = r := by
        rw [hr]
        exact dropWhile_of_avoids (avoids_cons (isGap_of_isNumeralPart (htext d hd)) _)
      rw [hnext, hr] at hgap
      cases hgap
  rw [htoList]
  have hc : isNumeralPart c = true := htext c (htoList ▸ List.mem_cons_self)
  cases ReadsFrom.of_reads hfrom with
  | text => cases hc
  | array => cases hc
  | object => cases hc
  | negative hnumber =>
    obtain ⟨d, body, hafter, -, -, ⟨t, ht⟩, hlocal⟩ := readNumber_local hnumber
    obtain rfl := hend (d :: body) hafter
    rw [List.append_nil] at hafter
    rw [settled_of_value? ht, hafter]
    exact ⟨'-', _, rfl, .negative (reads_readNumber_of_strict (hlocal rest hrest))⟩
  | number hdigit hnumber =>
    obtain ⟨d, body, hafter, -, -, ⟨t, ht⟩, hlocal⟩ := readNumber_local hnumber
    rw [List.cons_append, List.cons.injEq] at hafter
    obtain ⟨rfl, hbody⟩ := hafter
    obtain rfl := hend body hbody
    rw [List.append_nil] at hbody
    rw [settled_of_value? ht, hbody]
    exact ⟨c, _, rfl, .number hdigit (reads_readNumber_of_strict (hlocal rest hrest))⟩
  | word hword =>
    cases hword <;> cases hc

/-- A floating number in a document reads as it does on its own. -/
theorem readsAs_real {p : Precision} {x : Binary} (hnumeral : Numeral ((numberLayout p).write p x))
    {v : Value} (h : parse ((numberLayout p).write p x) = .ok v) (strict : Bool)
    (depth level : Nat) : ReadsAs (readValue strict depth) level (.real p x) v := by
  apply readsAs_of_readsFrom
  intro rest hrest
  rw [Value.prettyAt]
  exact exists_of_parse_numeral hnumeral h strict depth hrest

end PolyLex.Json
