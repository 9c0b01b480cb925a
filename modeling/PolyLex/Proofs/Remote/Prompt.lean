import PolyLex.Proofs.Text.Ends
import PolyLex.Proofs.Text.Lines
import PolyLex.Remote.Payload
import PolyLex.Remote.Prompt

/-!
# What the question says of the source

The question about a source is a text before it, the source with its last line closed, and a text
behind it, and only the source itself tells sources apart (`analysisPrompt_eq`). The first line that
begins with a fence tells the language, since no line before it has a backtick (`find?_fence`). So
two questions are the same exactly if language and source are, up to the end of the last line.

The source is embedded as it stands. A reader that looks for the end of the fenced code finds it at
the first line of the source that begins with a fence (`fenced?_analysisPrompt`), and so it finds
the whole source exactly if no line of it does.
-/

namespace PolyLex.Remote

open Text

/-- The line that opens code with a tag. -/
def openLine (tag : String) : List Char := ("```" ++ tag ++ "\n").toList

/-- The lines before the first one that begins with a fence. -/
def untilFence (ls : List (List Char)) : List (List Char) := ls.takeWhile (¬fence <+: ·)

/-- What stands between the first line that opens code with the tag and the next one that begins
with a fence. -/
def fenced? (tag text : String) : Option String :=
  match (lines text.toList).dropWhile (· ≠ openLine tag) with
  | [] => none
  | _ :: behind =>
    if behind.any (fence <+: ·) then some (String.ofList (untilFence behind).flatten) else none

/-! ### The parts of the question -/

/-- The text before the code. -/
def preface (language : Language) : String :=
  String.join (((analysisSections language "").take 5).map Section.render)

/-- The text before the source, with the line that opens the code. -/
def opening (language : Language) : String := preface language ++ ("```" ++ language.id ++ "\n")

/-- The text behind the code. -/
def conclusion (language : Language) : String :=
  String.join (((analysisSections language "").drop 6).map Section.render)

/-- The text behind the source, with the line that closes the code. -/
def closing (language : Language) : String := trimEnd ("```\n\n" ++ conclusion language)

/-- A visible character stops the trimming, so that what stands before it stays. -/
theorem trimEnd_append {back : String} (h : ∃ c ∈ back.toList, isBlank c = false) (front : String) :
    trimEnd (front ++ back) = front ++ trimEnd back := by
  obtain ⟨c, hc, hvisible⟩ := h
  obtain ⟨before, after, hback⟩ := List.append_of_mem hc
  rw [← String.toList_inj]
  simp only [trimEnd, String.toList_append, String.toList_ofList, hback]
  rw [← List.append_assoc, dropEndWhile_append_cons hvisible, dropEndWhile_append_cons hvisible,
    List.append_assoc]

/-- The source stands in the question with its last line closed, and nothing else depends on it. -/
theorem analysisPrompt_eq (language : Language) (source : String) :
    analysisPrompt language source = opening language ++ closeLine source ++ closing language := by
  have hsections : analysisSections language source = (analysisSections language "").take 5 ++
      .code language.id source :: (analysisSections language "").drop 6 := rfl
  rw [closing, ← trimEnd_append ⟨'\x60', by simp, by decide⟩, analysisPrompt, prompt, hsections,
    List.map_append, List.map_cons, String.join_append, String.join_cons, Section.render]
  simp only [opening, preface, conclusion, String.append_assoc]

/-- A source is closed by at most one line feed. -/
theorem closeLine_toList (source : String) : (closeLine source).toList = source.toList ∨
    (closeLine source).toList = source.toList ++ ['\n'] := by
  unfold closeLine
  split
  · exact .inl rfl
  · exact .inr String.toList_append

theorem getLast?_closeLine (source : String) : (closeLine source).toList.getLast? = some '\n' := by
  unfold closeLine
  split
  · next h => exact h
  · rw [String.toList_append, List.getLast?_append]
    rfl

theorem getLast?_opening (language : Language) :
    (opening language).toList.getLast? = some '\n' := by
  rw [opening, String.toList_append, String.toList_append, List.getLast?_append,
    List.getLast?_append]
  rfl

/-! ### Backticks -/

/-- The text holds no backtick. -/
def Tickless (s : String) : Prop := '\x60' ∉ s.toList

/-- Texts without backticks make one without. -/
theorem Tickless.append {s t : String} (hs : Tickless s) (ht : Tickless t) : Tickless (s ++ t) := by
  rw [Tickless, String.toList_append, List.mem_append]
  exact fun h => h.elim hs ht

theorem Tickless.ofList {cs : List Char} (h : '\x60' ∉ cs) : Tickless (String.ofList cs) := by
  rwa [Tickless, String.toList_ofList]

/-- Parts without backticks make a text without. -/
theorem tickless_join {parts : List String} (h : ∀ s ∈ parts, Tickless s) :
    Tickless (String.join parts) := by
  rw [Tickless, String.toList_join, List.mem_flatMap]
  rintro ⟨s, hs, htick⟩
  exact h s hs htick

theorem tickless_numberedLines {items : List String} (h : ∀ item ∈ items, Tickless item) (n : Nat) :
    Tickless (numberedLines n items) := by
  induction items generalizing n with
  | nil => exact List.not_mem_nil
  | cons item items ih =>
    obtain ⟨hitem, hitems⟩ := List.forall_mem_cons.mp h
    have hnumber : Tickless (toString n) := .ofList fun h => by
      cases Nat.isDigit_of_mem_toDigits (by decide) (by decide) h
    exact (((hnumber.append (.ofList (by decide))).append hitem).append
      (.ofList (by decide))).append (ih hitems _)

theorem tickless_bulletLines {items : List String} (h : ∀ item ∈ items, Tickless item) :
    Tickless (bulletLines items) := by
  induction items with
  | nil => exact List.not_mem_nil
  | cons item items ih =>
    obtain ⟨hitem, hitems⟩ := List.forall_mem_cons.mp h
    exact (((Tickless.ofList (by decide)).append hitem).append
      (.ofList (by decide))).append (ih hitems)

theorem tickless_kindHints : ∀ hint ∈ kindHints, Tickless hint := by
  intro hint hhint
  obtain ⟨kind, hkind, rfl⟩ := List.mem_map.mp hhint
  have hname : ∀ kind ∈ Kind.known, Tickless kind.name := by
    intro kind hkind
    cases kind with
    | other name => simp [Kind.known] at hkind
    | _ => exact .ofList (by decide)
  have hhint : Tickless (kindHint kind) := by
    cases kind <;> exact .ofList (by decide)
  exact (((hname kind (List.mem_filter.mp hkind).1).append (.ofList (by decide))).append
    hhint).append (.ofList (by decide))

/-- The texts of a section that is no code hold no backtick. -/
def Section.Tickless : Section → Prop
  | .text content => Remote.Tickless content
  | .numbered items | .bullets items => ∀ item ∈ items, Remote.Tickless item
  | .code _ _ => False

/-- A section is written without backticks if its parts have none. -/
theorem Section.Tickless.render {part : Section} (h : part.Tickless) :
    Remote.Tickless part.render := by
  cases part with
  | text content => exact Remote.Tickless.append h (.ofList (by decide))
  | numbered items => exact (tickless_numberedLines h 1).append (.ofList (by decide))
  | bullets items => exact (tickless_bulletLines h).append (.ofList (by decide))
  | code tag content => cases h

/-- What stands before the source has no backticks, whatever the language. -/
theorem tickless_preface (language : Language) : Tickless (preface language) := by
  have hid : Tickless language.id := by
    cases language <;> exact .ofList (by decide)
  have hlead : ∀ part ∈ (analysisSections language "").take 5, part.Tickless := by
    simp only [analysisSections, List.take, List.forall_mem_cons, Section.Tickless]
    refine ⟨?_, ⟨?_, ?_, by simp⟩, ?_, tickless_kindHints, ?_, by simp⟩
    · refine ((Tickless.append ?_ hid).append ?_).append ?_ <;> exact .ofList (by simp)
    · refine Tickless.append ?_ ?_ <;> exact .ofList (by simp)
    · exact .ofList (by simp)
    · exact .ofList (by simp)
    · exact .ofList (by simp)
  refine tickless_join fun text htext => ?_
  obtain ⟨part, hpart, rfl⟩ := List.mem_map.mp htext
  exact (hlead part hpart).render

/-! ### The lines around the source -/

theorem getLast?_preface (language : Language) :
    (preface language).toList.getLast? = some '\n' := by
  have hlast : ((analysisSections language "").take 5).map Section.render =
      ((analysisSections language "").take 4).map Section.render ++
        ["Here's the code to analyze:" ++ "\n\n"] := rfl
  rw [preface, hlast, String.join_append, String.join_cons, String.join_nil, String.append_empty,
    String.toList_append, String.toList_append, List.getLast?_append, List.getLast?_append]
  rfl

/-- The line that opens the code is the last one before the source, and no other begins with a
fence. -/
theorem lines_opening (language : Language) : ∃ front, lines (opening language).toList =
    front ++ [openLine language.id] ∧ ∀ line ∈ front, ¬fence <+: line := by
  have hid : '\n' ∉ fence ++ language.id.toList := by
    cases language <;> decide
  have hopen : ("```" ++ language.id ++ "\n").toList = fence ++ language.id.toList ++ ['\n'] := by
    simp [fence]
  refine ⟨lines (preface language).toList, ?_, fun line hline => ?_⟩
  · rw [opening, String.toList_append, lines_append (.inr (getLast?_preface language)), openLine,
      hopen, lines_feed hid, lines_nil]
  · intro hfence
    have hmem : '\x60' ∈ line := hfence.subset (by simp [fence])
    refine tickless_preface language ?_
    rw [← flatten_lines (preface language).toList]
    exact List.mem_flatten.mpr ⟨line, hline, hmem⟩

/-- What stands behind the source begins with the closing fence, on a line of its own. -/
theorem lines_closing (language : Language) :
    ∃ behind, lines (closing language).toList = (fence ++ ['\n']) :: behind := by
  have hvisible : ∃ c ∈ ("\n" ++ conclusion language).toList, isBlank c = false := by
    refine ⟨'R', ?_, by decide⟩
    rw [String.toList_append, List.mem_append, conclusion, String.toList_join, List.mem_flatMap]
    refine .inr ⟨_, List.mem_cons_self, ?_⟩
    rw [Section.render, String.toList_append, List.mem_append, String.toList_ofList]
    exact .inl List.mem_cons_self
  have hclosing : (closing language).toList =
      fence ++ '\n' :: (trimEnd ("\n" ++ conclusion language)).toList := by
    have hsplit : "```\n\n" = "```\n" ++ "\n" := by decide
    have hline : "```\n".toList = fence ++ ['\n'] := by decide
    rw [closing, hsplit, String.append_assoc, trimEnd_append hvisible, String.toList_append, hline,
      List.append_assoc, List.singleton_append]
  exact ⟨_, by rw [hclosing, lines_feed (by decide)]⟩

theorem fence_isPrefix_openLine (tag : String) : fence <+: openLine tag :=
  ⟨(tag ++ "\n").toList, by simp [openLine, fence]⟩

/-- The lines of the question: the first that begins with a fence opens the code, and the one behind
the source closes it. -/
theorem lines_analysisPrompt (language : Language) (source : String) : ∃ front behind,
    lines (analysisPrompt language source).toList = front ++ openLine language.id ::
        (lines (closeLine source).toList ++ (fence ++ ['\n']) :: behind) ∧
      ∀ line ∈ front, ¬fence <+: line := by
  obtain ⟨front, hopening, hfront⟩ := lines_opening language
  obtain ⟨behind, hclosing⟩ := lines_closing language
  refine ⟨front, behind, ?_, hfront⟩
  rw [analysisPrompt_eq, String.toList_append, String.toList_append, List.append_assoc,
    lines_append (.inr (getLast?_opening language)),
    lines_append (.inr (getLast?_closeLine source)), hopening, hclosing, List.append_assoc,
    List.singleton_append]

/-! ### Fences of the source -/

/-- What is found between the fences of the question: the lines of the source before the first that
begins with a fence. -/
theorem fenced?_analysisPrompt (language : Language) (source : String) :
    fenced? language.id (analysisPrompt language source) =
      some (String.ofList (untilFence (lines (closeLine source).toList)).flatten) := by
  obtain ⟨front, behind, hlines, hfront⟩ := lines_analysisPrompt language source
  have hskip : ∀ line ∈ front, decide (line ≠ openLine language.id) = true := by
    rintro line hline
    rw [decide_eq_true_eq]
    rintro rfl
    exact hfront _ hline (fence_isPrefix_openLine _)
  rw [fenced?, hlines, List.dropWhile_append_of_pos hskip, List.dropWhile_cons_of_neg (by simp)]
  dsimp only
  rw [if_pos (by simp [fence]), untilFence, takeWhile_append_cons_of_neg (by simp [fence]),
    untilFence]

/-- No line of the text begins with a fence. -/
def Fenceless (cs : List Char) : Prop := ∀ line ∈ lines cs, ¬fence <+: line

/-- A line feed at the end makes no fence and breaks none. -/
theorem fenceless_feed (cs : List Char) : Fenceless (cs ++ ['\n']) ↔ Fenceless cs := by
  fun_induction lines cs with
  | case1 =>
    rw [Fenceless, lines_feed List.not_mem_nil, Fenceless, lines_nil]
    simp [fence]
  | case2 c cs ih =>
    have hne := List.cons_ne_nil c cs
    generalize c :: cs = a at *
    have happend := firstLine_append a
    rw [Fenceless, Fenceless, lines_of_ne_nil hne, List.forall_mem_cons]
    rcases firstLine_cases a with hfeed | ⟨hnil, hfeedless⟩
    · -- the first line is closed already
      rw [← happend, List.append_assoc, lines_line hne (.inl hfeed), List.forall_mem_cons, happend]
      exact and_congr_right fun _ => ih
    · rw [hnil, List.append_nil] at happend
      rw [happend] at hfeedless ⊢
      have hlonger : fence ≠ a ++ ['\n'] := fun h =>
        absurd (h ▸ List.mem_append_right a List.mem_cons_self : '\n' ∈ fence) (by decide)
      rw [lines_feed hfeedless, List.forall_mem_cons, hnil, List.prefix_concat_iff,
        or_iff_right hlonger]

theorem fenceless_closeLine (source : String) :
    Fenceless (closeLine source).toList ↔ Fenceless source.toList := by
  rcases closeLine_toList source with h | h
  · rw [h]
  · rw [h, fenceless_feed]

/-- The lines before the first fence are the whole text exactly if it has no fence. -/
theorem flatten_untilFence_eq_iff (cs : List Char) :
    (untilFence (lines cs)).flatten = cs ↔ Fenceless cs := by
  constructor
  · intro h
    have hsplit : (untilFence (lines cs)).flatten ++
        ((lines cs).dropWhile (¬fence <+: ·)).flatten = cs := by
      rw [untilFence, ← List.flatten_append, List.takeWhile_append_dropWhile, flatten_lines]
    rw [h, List.append_right_eq_self, List.flatten_eq_nil_iff] at hsplit
    have hhead := List.head?_dropWhile_not (fun line => decide (¬fence <+: line)) (lines cs)
    cases hrest : (lines cs).dropWhile (¬fence <+: ·) with
    | nil => exact fun line hline => of_decide_eq_true (List.dropWhile_eq_nil_iff.mp hrest line hline)
    | cons line more =>
      -- a line that is left would begin with a fence, though it is empty
      rw [hrest] at hsplit hhead
      obtain rfl := hsplit line List.mem_cons_self
      simp [fence] at hhead
  · intro h
    have hall : ∀ line ∈ lines cs, decide (¬fence <+: line) = true := fun line hline =>
      decide_eq_true (h line hline)
    rw [untilFence, List.takeWhile_eq_self_iff.mpr hall, flatten_lines]

/-- The first line of the question that begins with a fence tells the language. -/
theorem find?_fence (language : Language) (source : String) :
    (lines (analysisPrompt language source).toList).find? (fence <+: ·) =
      some (openLine language.id) := by
  obtain ⟨front, behind, hlines, hfront⟩ := lines_analysisPrompt language source
  have hnone : front.find? (fence <+: ·) = none := by simpa using hfront
  rw [hlines, List.find?_append, hnone, Option.none_or, List.find?_cons_of_pos]
  exact decide_eq_true (fence_isPrefix_openLine _)

/-- Questions are the same exactly if languages are, and sources up to the end of their last lines.
-/
theorem analysisPrompt_eq_iff {language language' : Language} {source source' : String} :
    analysisPrompt language source = analysisPrompt language' source' ↔
      language = language' ∧ closeLine source = closeLine source' := by
  constructor
  · intro h
    have hopen := find?_fence language source
    rw [h, find?_fence, Option.some.injEq, openLine, openLine, String.toList_inj,
      String.append_left_inj, String.append_right_inj] at hopen
    have hlanguage : language = language' := by
      rw [← Option.some_inj, ← Language.ofId?_id, ← Language.ofId?_id, hopen]
    subst hlanguage
    rw [analysisPrompt_eq, analysisPrompt_eq, String.append_left_inj, String.append_right_inj] at h
    exact ⟨rfl, h⟩
  · rintro ⟨rfl, hsource⟩
    rw [analysisPrompt_eq, analysisPrompt_eq, hsource]

/-- A reader of the question finds the source between the fences, with its last line closed, exactly
if no line of the source begins with a fence. Whatever the source is, the question tells it and the
language, up to the end of the last line, and nothing outside of the source depends on it. -/
theorem analysisPrompt_fenced (language : Language) (source : String) :
    (fenced? language.id (analysisPrompt language source) = some (closeLine source) ↔
      Fenceless source.toList) ∧
    (∀ language' source', analysisPrompt language source = analysisPrompt language' source' ↔
      language = language' ∧ closeLine source = closeLine source') ∧
    ∃ before after, ∀ source',
      analysisPrompt language source' = before ++ closeLine source' ++ after := by
  refine ⟨?_, fun _ _ => analysisPrompt_eq_iff, _, _, analysisPrompt_eq language⟩
  rw [fenced?_analysisPrompt, Option.some.injEq, ← String.toList_inj, String.toList_ofList,
    flatten_untilFence_eq_iff, fenceless_closeLine]

/-- A source with a fence of its own: what is found of it ends there. -/
theorem fenced?_ownFence :
    fenced? Language.python.id (analysisPrompt .python "x\n```\ny\n") = some "x\n" ∧
      closeLine "x\n```\ny\n" ≠ "x\n" := by
  rw [fenced?_analysisPrompt]
  decide +kernel

end PolyLex.Remote
