import PolyLex.Proofs.Json.Fit
import PolyLex.Remote.Payload

/-!
# Which part of a reply is read

A reply that is a JSON document should be read as that document. It is, unless a string in it
holds two fences with something visible between them: the search for fences does not know of
strings, and what it finds between them is read instead of the document.

* `payload_of_blank`, `payload_of_visible` — the two parts that are read, told by the first block;
* `extract_document` — a document is read as it is, or else only its first visible block is;
* `extract_fenced_comment` — the latter happens to a listing that quotes two fences.
-/

namespace PolyLex.Remote

open Json Text

section Payload

variable {content : String} {cs : List Char}
  (hcs : content.toList.dropWhile (· == '\uFEFF') = cs)
include hcs

/-- A reply without a visible block is its own payload. -/
theorem payload_of_blank (hblank : ∀ block ∈ firstBlock? cs, ∀ c ∈ block, isBlank c = true) :
    payload content = String.ofList (trimBy isBlank cs) := by
  rw [payload, hcs]
  dsimp only
  cases hfirst : firstBlock? cs with
  | none => rfl
  | some block =>
    have htrim : trimBy isBlank block = [] := trimBy_eq_nil_iff.mpr (hblank block hfirst)
    dsimp only
    rw [htrim, if_pos List.isEmpty_nil]

/-- A visible block is the payload, whatever stands around it. -/
theorem payload_of_visible {block : List Char} (hblock : firstBlock? cs = some block)
    (hvisible : ∃ c ∈ block, isBlank c = false) :
    payload content = String.ofList (trimBy isBlank block) := by
  have htrim : ¬ (trimBy isBlank block).isEmpty = true := by
    rw [List.isEmpty_iff, trimBy_eq_nil_iff]
    intro hblank
    obtain ⟨c, hc, hvisible⟩ := hvisible
    rw [hblank c hc] at hvisible
    cases hvisible
  rw [payload, hcs, hblock]
  dsimp only
  rw [if_neg htrim]

end Payload

/-- A value is extracted just if the payload parses as it. -/
theorem extract_eq_ok_iff {content : String} {v : Value} :
    extract content = .ok v ↔ parse (payload content) = .ok v := by
  rw [extract]
  cases parse (payload content) <;> simp

/-- A document without a visible block is read as it is, and of one with a visible block nothing
but the block is read. -/
theorem extract_document {text : String} {v : Value} (h : parse text = .ok v) :
    ((∀ block ∈ firstBlock? text.toList, ∀ c ∈ block, isBlank c = true) → extract text = .ok v) ∧
      ∀ block ∈ firstBlock? text.toList, (∃ c ∈ block, isBlank c = false) →
        payload text = String.ofList (trimBy isBlank block) := by
  have hunmarked : text.toList.dropWhile (· == '\uFEFF') = text.toList :=
    dropWhile_of_avoids (avoids_mark_of_parse h)
  constructor
  · intro hblank
    rw [extract_eq_ok_iff, payload_of_blank hunmarked hblank]
    exact parse_trim h
  · intro block hblock hvisible
    exact payload_of_visible hunmarked hblock hvisible

/-- Two fences that stand side by side hold a blank block. -/
theorem extract_adjacent_fences : ∃ v, parse "\"\x60\x60\x60\x60\x60\x60\"" = .ok v ∧
    extract "\"\x60\x60\x60\x60\x60\x60\"" = .ok v := by
  have hparse : (parse "\"\x60\x60\x60\x60\x60\x60\"").toOption.any (fun _ => true) = true := by
    decide +kernel
  have hfirst : firstBlock? "\"\x60\x60\x60\x60\x60\x60\"".toList = some [] := by
    decide +kernel
  obtain ⟨v, hv, -⟩ := exists_ok_of_any hparse
  refine ⟨v, hv, (extract_document hv).1 ?_⟩
  intro block hblock c hc
  rw [hfirst] at hblock
  cases hblock
  cases hc

/-- A listing whose only token is a comment with something between two fences. -/
def fencedComment : String :=
  "\x7b\"tokens\": [\x7b\"type\": \"comment\", \"value\": \"\x60\x60\x601\x60\x60\x60\"\x7d]\x7d"

/-- A document is not always read as it is. -/
theorem extract_fenced_comment : ∃ v, parse fencedComment = .ok v ∧
    extract fencedComment = .ok (.int 1) ∧ extract fencedComment ≠ .ok v := by
  have hparse : (parse fencedComment).toOption.any (fun v => v.members?.isSome) = true := by
    decide +kernel
  have hextract : (extract fencedComment).toOption.any (fun w => w.nat? == some 1) = true := by
    decide +kernel
  obtain ⟨v, hv, hobj⟩ := exists_ok_of_any hparse
  obtain ⟨w, hw, hone⟩ := exists_ok_of_any hextract
  have hint : w = .int 1 := Value.nat?_eq_some_iff.mp (eq_of_beq hone)
  subst hint
  refine ⟨v, hv, hw, ?_⟩
  intro hextract
  rw [hw] at hextract
  cases hextract
  cases hobj

end PolyLex.Remote
