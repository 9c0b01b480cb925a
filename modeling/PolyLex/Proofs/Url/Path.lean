import PolyLex.Proofs.Text.Ends
import PolyLex.Proofs.Text.Parts
import PolyLex.Url.Address

/-!
# Paths and the slashes at their end

A slash more at the end of a written path is an empty segment more at the end of the path that is
read, and nothing else changes (`exists_readSegments_slashes`): the dots of a last segment have been
resolved by then. What is left of a path without the slashes at its end does therefore not depend on
how many of them were written.

* `resolveSegments_append` — segments that come later are resolved on top of those kept so far;
* `EndsInOneSlash`, `append_eq_withoutSlashes_iff` — when a path with a last segment exchanged is
  the path without its slashes, with something added;
* `EndsInName`, `endsInOneSlash_keepSegments` — a text for which that can be told without reading
  it: it ends in a name, so that the slash behind it is the only one.
-/

namespace PolyLex

namespace Url

/-! ### Segments -/

/-- The segments that are kept, last first, when more of them are to come. -/
def keepSegments (ofFiles : Bool) (back : List String) (parts : List (List Char)) : List String :=
  parts.foldl (fun back cs =>
    if isTwoDots cs then takeBack ofFiles back
    else if isDot cs then back
    else segment ofFiles back.isEmpty cs :: back) back

/-- The segments in front are resolved on their own, whatever follows. -/
theorem resolveSegments_append (ofFiles : Bool) {more : List (List Char)} (hmore : more ≠ []) :
    ∀ (parts : List (List Char)) (back : List String),
      resolveSegments ofFiles back (parts ++ more) =
        resolveSegments ofFiles (keepSegments ofFiles back parts) more
  | [], _ => rfl
  | cs :: parts, back => by
    have hrest : (parts ++ more).isEmpty = false :=
      List.isEmpty_eq_false_iff.mpr (List.append_ne_nil_of_right_ne_nil _ hmore)
    rw [List.cons_append, resolveSegments, hrest, keepSegments, List.foldl_cons]
    simp only [Bool.false_eq_true, if_false]
    exact resolveSegments_append ofFiles hmore parts _

theorem segment_nil (ofFiles isFirst : Bool) : segment ofFiles isFirst [] = "" := by
  have hdrive : isDrive [] = false := rfl
  rw [segment, hdrive, Bool.and_false, if_neg Bool.false_ne_true]
  rfl

/-- Empty segments are kept. -/
theorem resolveSegments_empty (ofFiles : Bool) (k : Nat) : ∀ back : List String,
    resolveSegments ofFiles back (List.replicate k []) = back.reverse ++ List.replicate k "" := by
  induction k with
  | zero => exact fun back => (List.append_nil _).symm
  | succ k ih =>
    intro back
    have htwo : isTwoDots [] = false := rfl
    have hone : isDot [] = false := rfl
    rw [List.replicate_succ, resolveSegments, htwo, hone, segment_nil]
    simp only [Bool.false_eq_true, if_false]
    rw [ih, List.reverse_cons, List.append_assoc, List.replicate_succ]
    rfl

/-- The last segment is resolved in place: dots leave an empty one. -/
theorem resolveSegments_concat (ofFiles : Bool) (parts : List (List Char)) (part : List Char) :
    resolveSegments ofFiles [] (parts ++ [part]) =
      if isTwoDots part || isDot part then
        (keepSegments ofFiles [] (parts ++ [part])).reverse ++ [""]
      else (keepSegments ofFiles [] (parts ++ [part])).reverse := by
  rw [resolveSegments_append ofFiles (List.cons_ne_nil _ _), keepSegments, keepSegments,
    List.foldl_append, List.foldl_cons, List.foldl_nil, resolveSegments]
  cases isTwoDots part with
  | true => simp [resolveSegments]
  | false => cases isDot part <;> simp [resolveSegments]

theorem slash_not_mem_encode {reserved cs : List Char} (h : '/' ∉ cs) :
    '/' ∉ Percent.encode reserved cs := by
  have hdigit : ∀ n : Fin 16, '/' ≠ Text.capitalHexDigit n.val := by decide
  intro hmem
  obtain ⟨c, hc, hmem⟩ := List.mem_flatMap.mp hmem
  split at hmem
  · rw [List.mem_singleton.mp hmem] at h
    exact h hc
  · obtain ⟨b, -, hmem⟩ := List.mem_flatMap.mp hmem
    have hhigh : b.toNat / 16 < 16 := Nat.div_lt_of_lt_mul b.toNat_lt
    have hlow : b.toNat % 16 < 16 := Nat.mod_lt _ (by decide)
    simp only [Percent.ofByte, List.mem_cons, List.not_mem_nil, or_false] at hmem
    rcases hmem with hmem | hmem | hmem
    · exact absurd hmem (by decide)
    · exact hdigit ⟨_, hhigh⟩ hmem
    · exact hdigit ⟨_, hlow⟩ hmem

theorem slash_not_mem_segment {cs : List Char} (h : '/' ∉ cs) (ofFiles isFirst : Bool) :
    '/' ∉ (segment ofFiles isFirst cs).toList := by
  unfold segment
  split
  · rw [String.toList_ofList, List.mem_append, not_or]
    exact ⟨fun hmem => h (List.mem_of_mem_take hmem), by decide⟩
  · rw [String.toList_ofList]
    exact slash_not_mem_encode h

/-! ### Paths that are written -/

def Path.text : Path → String
  | .segments names => segmentsText names
  | .flat text => text

/-- The text without the slashes at its end. -/
def withoutSlashes (s : String) : String := String.ofList (Text.dropEndWhile (· == '/') s.toList)

/-- There is a slash at the end of the text, and no second one before it. -/
def EndsInOneSlash (s : String) : Prop :=
  ∃ front, s.toList = front ++ ['/'] ∧ front.getLast? ≠ some '/'

/-- Segments are written with a slash before each. -/
theorem toList_segmentsText (names : List String) :
    (segmentsText names).toList = names.flatMap fun name => '/' :: name.toList := by
  rw [segmentsText, String.toList_join, List.flatMap_map]
  simp

theorem segmentsText_append (names more : List String) :
    segmentsText (names ++ more) = segmentsText names ++ segmentsText more := by
  rw [← String.toList_inj, String.toList_append, toList_segmentsText, toList_segmentsText,
    toList_segmentsText, List.flatMap_append]

/-- Behind a name, an empty segment is the one slash at the end. -/
theorem endsInOneSlash_concat {names : List String} {name : String} (hne : name ≠ "")
    (hslash : '/' ∉ name.toList) :
    EndsInOneSlash (segmentsText (names ++ [name] ++ [""])) := by
  obtain ⟨c, hc⟩ := Option.ne_none_iff_exists'.mp
    (mt List.getLast?_eq_none_iff.mp (mt String.toList_eq_nil_iff.mp hne))
  refine ⟨(segmentsText (names ++ [name])).toList, ?_, ?_⟩
  · rw [segmentsText_append, String.toList_append]
    rfl
  · have hlast : (segmentsText (names ++ [name])).toList.getLast? = some c := by
      rw [segmentsText_append, String.toList_append, toList_segmentsText [name],
        List.flatMap_singleton, List.getLast?_append, List.getLast?_cons, hc]
      rfl
    rw [hlast]
    rintro ⟨⟩
    exact hslash (List.mem_of_getLast? hc)

/-- Empty segments at the end of a path are slashes at its end. -/
theorem withoutSlashes_segmentsText (names : List String) (k : Nat) :
    withoutSlashes (segmentsText (names ++ List.replicate k "")) =
      withoutSlashes (segmentsText names) := by
  have hslashes : (segmentsText (List.replicate k "")).toList = List.replicate k '/' := by
    rw [toList_segmentsText]
    induction k with
    | zero => rfl
    | succ k ih => rw [List.replicate_succ, List.flatMap_cons, ih]; rfl
  rw [withoutSlashes, segmentsText_append, String.toList_append, hslashes,
    Text.dropEndWhile_append_of_all (by simp)]
  rfl

/-- There are no slashes to take away if the last character is none. -/
theorem withoutSlashes_eq_self_iff {s : String} :
    withoutSlashes s = s ↔ s.toList.getLast? ≠ some '/' := by
  constructor
  · intro h hlast
    obtain ⟨-, -, -, hend⟩ := Text.exists_dropEndWhile (· == '/') s.toList
    rw [← String.toList_inj, withoutSlashes, String.toList_ofList] at h
    rw [h] at hend
    exact absurd (hend '/' hlast) (by decide)
  · intro hlast
    have hend : ∀ c ∈ s.toList.getLast?, (c == '/') = false := by
      intro c hc
      rw [beq_eq_false_iff_ne]
      rintro rfl
      exact hlast hc
    rw [withoutSlashes, Text.dropEndWhile_of_getLast? hend, String.ofList_toList]

/-- The last segment exchanged for something else is the path without its slashes and the same
behind it, just if the last segment is empty and the one before it is not. -/
theorem append_eq_withoutSlashes_iff {names : List String} {last : String}
    (hlast : '/' ∉ last.toList) (more : String) :
    segmentsText names ++ more = withoutSlashes (segmentsText (names ++ [last])) ++ more ↔
      EndsInOneSlash (segmentsText (names ++ [last])) := by
  have htext : (segmentsText (names ++ [last])).toList =
      (segmentsText names).toList ++ '/' :: last.toList := by
    rw [segmentsText_append, String.toList_append, toList_segmentsText [last]]
    simp
  rw [String.append_left_inj, eq_comm]
  cases hchars : last.toList with
  | nil =>
    rw [String.toList_eq_nil_iff] at hchars
    have hslash : withoutSlashes (segmentsText (names ++ [last])) =
        withoutSlashes (segmentsText names) := by
      rw [hchars]
      exact withoutSlashes_segmentsText names 1
    rw [hslash, withoutSlashes_eq_self_iff, EndsInOneSlash, htext, hchars]
    constructor
    · exact fun hend => ⟨_, rfl, hend⟩
    · rintro ⟨front, hfront, hend⟩
      rwa [(List.append_inj' hfront rfl).1]
  | cons c cs =>
    -- A segment that is not empty stays, so that the path is longer than what is before it.
    have hend : (segmentsText (names ++ [last])).toList.getLast? = (c :: cs).getLast? := by
      rw [htext, hchars, List.getLast?_append, List.getLast?_cons_cons, List.getLast?_cons,
        Option.some_or]
    have hnot : (segmentsText (names ++ [last])).toList.getLast? ≠ some '/' := by
      rw [hend]
      intro hmem
      exact hlast (hchars ▸ List.mem_of_getLast? hmem)
    constructor
    · intro heq
      rw [withoutSlashes_eq_self_iff.mpr hnot, ← String.toList_inj, htext] at heq
      have hlength := congrArg List.length heq
      rw [List.length_append, List.length_cons] at hlength
      omega
    · rintro ⟨front, hfront, -⟩
      rw [hfront, List.getLast?_concat] at hnot
      exact absurd rfl hnot

/-! ### Texts that end in a name -/

/-- What stands behind the last slash of the text is the name of a segment: it is not empty, and
not one of the dots that stand for another segment or for none. -/
def EndsInName (isSlash : Char → Bool) (cs : List Char) : Prop :=
  ∀ part ∈ (Text.splitBy isSlash cs).getLast?,
    part ≠ [] ∧ isDot part = false ∧ isTwoDots part = false

/-- Only what stands behind a slash matters. -/
theorem EndsInName.of_slash {isSlash : Char → Bool} {c : Char} {front back : List Char}
    (h : EndsInName isSlash (front ++ c :: back)) (hc : isSlash c = true) :
    EndsInName isSlash back := by
  obtain ⟨parts, part, hparts⟩ := Text.exists_splitBy_concat isSlash back
  unfold EndsInName at h ⊢
  rw [Text.splitBy_mark hc, hparts, ← List.append_assoc, List.getLast?_concat] at h
  rwa [hparts, List.getLast?_concat]

theorem encode_ne_nil {cs : List Char} (h : cs ≠ []) (reserved : List Char) :
    Percent.encode reserved cs ≠ [] := by
  obtain ⟨c, cs, rfl⟩ := List.exists_cons_of_ne_nil h
  rw [Percent.encode, List.flatMap_cons]
  refine List.append_ne_nil_of_left_ne_nil ?_ _
  split
  · exact List.cons_ne_nil _ _
  · obtain ⟨b, bytes, hbytes⟩ := List.exists_cons_of_ne_nil (String.utf8EncodeChar_ne_nil (c := c))
    rw [hbytes, List.flatMap_cons]
    exact List.cons_ne_nil _ _

theorem segment_ne_empty {cs : List Char} (h : cs ≠ []) (ofFiles isFirst : Bool) :
    segment ofFiles isFirst cs ≠ "" := by
  unfold segment
  split <;> rw [← String.toList_inj.ne, String.toList_ofList]
  · exact List.append_ne_nil_of_right_ne_nil _ (List.cons_ne_nil _ _)
  · exact encode_ne_nil h _

/-! ### Paths that are read -/

section Read

variable {isSlash : Char → Bool} (hslash : isSlash '/' = true) (ofFiles : Bool)
include hslash

/-- A path has a last segment, which holds no slash. -/
theorem exists_readSegments_concat (cs : List Char) : ∃ names last,
    readSegments ofFiles isSlash cs = names ++ [last] ∧ '/' ∉ last.toList := by
  obtain ⟨parts, part, hparts⟩ := Text.exists_splitBy_concat isSlash cs
  have hclear : '/' ∉ part := by
    intro hmem
    have hpart : part ∈ Text.splitBy isSlash cs := by simp [hparts]
    rw [Text.not_mark_of_mem_splitBy hpart _ hmem] at hslash
    cases hslash
  rw [readSegments, hparts, resolveSegments_concat]
  by_cases hdots : (isTwoDots part || isDot part) = true
  · rw [if_pos hdots]
    exact ⟨_, "", rfl, by decide⟩
  · rw [if_neg hdots]
    rw [Bool.or_eq_true, not_or] at hdots
    rw [keepSegments, List.foldl_append, List.foldl_cons, List.foldl_nil, if_neg hdots.1,
      if_neg hdots.2, List.reverse_cons]
    exact ⟨_, _, rfl, slash_not_mem_segment hclear _ _⟩

/-- The segments of a text that ends in a name end in that name, with one slash behind it. -/
theorem endsInOneSlash_keepSegments {cs : List Char} (h : EndsInName isSlash cs) :
    EndsInOneSlash (segmentsText
      ((keepSegments ofFiles [] (Text.splitBy isSlash cs)).reverse ++ [""])) := by
  obtain ⟨parts, part, hparts⟩ := Text.exists_splitBy_concat isSlash cs
  have hlast : part ∈ (Text.splitBy isSlash cs).getLast? := by
    rw [hparts, List.getLast?_concat]
    rfl
  obtain ⟨hne, hdot, htwo⟩ := h part hlast
  have hclear : '/' ∉ part := by
    intro hmem
    have hpart : part ∈ Text.splitBy isSlash cs := List.mem_of_getLast? hlast
    rw [Text.not_mark_of_mem_splitBy hpart _ hmem] at hslash
    cases hslash
  rw [hparts, keepSegments, List.foldl_append, List.foldl_cons, List.foldl_nil, hdot, htwo,
    if_neg Bool.false_ne_true, if_neg Bool.false_ne_true, List.reverse_cons]
  exact endsInOneSlash_concat (segment_ne_empty hne _ _) (slash_not_mem_segment hclear _ _)

/-- Slashes at the end of a path that was begun by one are empty segments at its end. If there is
one of them, there is one empty segment for it, and it is the only one behind a name. -/
theorem exists_readSegments_slashes (path : List Char) : ∃ kept,
    ((path ≠ [] → EndsInName isSlash (path.drop 1)) →
      EndsInOneSlash (segmentsText (kept ++ [""]))) ∧
    ∀ k, ∃ j, (k = 1 → j = 1) ∧
      readSegments ofFiles isSlash ((path ++ List.replicate k '/').drop 1) =
        kept ++ List.replicate j "" := by
  have hmarks : ∀ k, ∀ c ∈ List.replicate k '/', isSlash c = true := by
    intro k c hc
    rw [List.eq_of_mem_replicate hc, hslash]
  cases path with
  | nil =>
    -- The path is begun by the first of the slashes.
    refine ⟨[], fun _ => ⟨[], rfl, by decide⟩, fun k => ⟨k - 1 + 1, fun hk => by rw [hk], ?_⟩⟩
    have hparts := Text.splitBy_append_marks (hmarks (k - 1)) []
    rw [List.nil_append, List.length_replicate] at hparts
    rw [List.nil_append, List.drop_replicate, readSegments, hparts]
    exact resolveSegments_empty ofFiles (k - 1 + 1) []
  | cons c path =>
    refine ⟨(keepSegments ofFiles [] (Text.splitBy isSlash path)).reverse,
      fun h => endsInOneSlash_keepSegments hslash ofFiles (h (List.cons_ne_nil _ _)),
      fun k => ?_⟩
    have hparts := Text.splitBy_append_marks (hmarks k) path
    rw [List.length_replicate] at hparts
    rw [List.cons_append, List.drop_one, List.tail_cons, readSegments, hparts]
    cases k with
    | succ k =>
      refine ⟨k + 1, id, ?_⟩
      rw [resolveSegments_append ofFiles (by simp), resolveSegments_empty]
    | zero =>
      obtain ⟨parts, part, hpath⟩ := Text.exists_splitBy_concat isSlash path
      rw [List.replicate_zero, List.append_nil, hpath, resolveSegments_concat]
      split
      · exact ⟨1, fun _ => rfl, rfl⟩
      · exact ⟨0, fun h => absurd h (by decide), (List.append_nil _).symm⟩

end Read

end Url

end PolyLex
