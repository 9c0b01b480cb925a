import PolyLex.Proofs.Url.Path

/-!
# Addresses and the slashes at their end

How many slashes stand at the end of the text of a web address matters only to the path that is read
(`Address.exists_parse_slashes`): they come behind the scheme and behind the authority. Two things
can hide them from the reader. Behind a query or a fragment they do not belong to the address at all
(`Address.parse_slashes_of_query`); and a blank at the end of the text is trimmed, while the same
blank before a slash is a part of the address, so that one has to be ruled out.

Nothing here depends on the rules for domain names: the host is read from the same text each time.
-/

namespace PolyLex.Url

open Text (Avoids)

/-! ### Cleaning -/

/-- The text without line breaks and tabs. -/
def withoutBreaks (cs : List Char) : List Char :=
  cs.filter fun c => !(c == '\t' || c == '\n' || c == '\r')

/-- Does the character begin a query or a fragment? -/
def isQueryMark (c : Char) : Bool := c == '?' || c == '#'

theorem withoutBreaks_append (front back : List Char) :
    withoutBreaks (front ++ back) = withoutBreaks front ++ withoutBreaks back :=
  List.filter_append ..

theorem withoutBreaks_cons (c : Char) (cs : List Char) :
    withoutBreaks (c :: cs) = withoutBreaks [c] ++ withoutBreaks cs :=
  withoutBreaks_append [c] cs

theorem withoutBreaks_slashes (k : Nat) :
    withoutBreaks (List.replicate k '/') = List.replicate k '/' := by
  rw [withoutBreaks, List.filter_eq_self]
  intro c hc
  rw [List.eq_of_mem_replicate hc]
  rfl

theorem avoids_blank_slashes (k : Nat) : Avoids (· ≤ ' ') (List.replicate k '/') := by
  intro c hc
  rw [List.eq_of_mem_replicate (List.mem_of_mem_head? hc)]
  decide

theorem mem_of_mem_clean {c : Char} {cs : List Char} (h : c ∈ clean cs) : c ∈ cs := by
  have hmem := (List.mem_filter.mp h).1
  rw [Text.trimBy, Text.dropEndWhile, List.mem_reverse] at hmem
  have hdropped := (List.dropWhile_suffix _).subset hmem
  exact (List.dropWhile_suffix _).subset (List.mem_reverse.mp hdropped)

/-- A visible character at the end of a text, but for line breaks and tabs. -/
theorem exists_visible_end {text : List Char} {c : Char} (h : c ∈ (withoutBreaks text).getLast?) :
    ∃ front back, text = front ++ c :: back ∧ withoutBreaks back = [] := by
  obtain ⟨kept, hkept⟩ := List.getLast?_eq_some_iff.mp h
  obtain ⟨front, rest, rfl, -, hrest⟩ := List.filter_eq_append_iff.mp hkept
  obtain ⟨breaks, back, rfl, -, -, hback⟩ := List.filter_eq_cons_iff.mp hrest
  exact ⟨front ++ breaks, back, (List.append_assoc ..).symm, hback⟩

theorem blank_of_withoutBreaks {back : List Char} (h : withoutBreaks back = []) :
    ∀ c ∈ back, decide (c ≤ ' ') = true := by
  intro c hc
  have hbreak := List.filter_eq_nil_iff.mp h c hc
  simp only [Bool.not_eq_true', Bool.or_eq_true, beq_iff_eq, Bool.not_eq_false] at hbreak
  rcases hbreak with (rfl | rfl) | rfl <;> decide

/-- Slashes at the end of a text stay, and so does the end before them, unless a blank at the end of
the text is trimmed. -/
theorem clean_slashes {text : List Char} {k : Nat}
    (h : 0 < k ∨ ∃ c ∈ (withoutBreaks text).getLast?, ' ' < c) :
    clean (text ++ List.replicate k '/') =
      withoutBreaks (text.dropWhile (· ≤ ' ')) ++ List.replicate k '/' := by
  show withoutBreaks (Text.dropEndWhile _ _) = _
  rw [Text.dropWhile_append_avoids (avoids_blank_slashes k)]
  cases k with
  | succ k =>
    -- A slash comes last, and it is no blank.
    have hend : ∀ c ∈ (text.dropWhile (· ≤ ' ') ++ List.replicate (k + 1) '/').getLast?,
        decide (c ≤ ' ') = false := by
      intro c hc
      rw [List.getLast?_append, List.getLast?_replicate, if_neg (Nat.succ_ne_zero k),
        Option.some_or] at hc
      cases hc
      decide
    rw [Text.dropEndWhile_of_getLast? hend, withoutBreaks_append, withoutBreaks_slashes]
  | zero =>
    obtain ⟨c, hc, hvisible⟩ := h.resolve_left (Nat.lt_irrefl 0)
    -- What is trimmed behind the visible character are line breaks and tabs, which go in any case.
    obtain ⟨front, back, rfl, hback⟩ := exists_visible_end hc
    have hstays : decide (c ≤ ' ') = false := decide_eq_false (Char.not_le.mpr hvisible)
    have hgone := Text.dropEndWhile_append_of_all (blank_of_withoutBreaks hback) []
    rw [List.nil_append] at hgone
    rw [List.replicate_zero, List.append_nil, List.append_nil,
      Text.dropWhile_append_avoids (Text.avoids_cons hstays back),
      Text.dropEndWhile_append_cons hstays, hgone, withoutBreaks_append, withoutBreaks_append,
      withoutBreaks_cons c back, hback, withoutBreaks_cons]
    rfl

/-! ### Queries -/

/-- A text without a query or fragment mark is kept as a whole. -/
theorem dropQuery_of_no_mark {cs : List Char} (h : ∀ c ∈ cs, isQueryMark c = false) :
    dropQuery cs = cs := by
  show cs.takeWhile (!isQueryMark ·) = cs
  rw [List.takeWhile_eq_self_iff]
  intro c hc
  rw [h c hc]
  rfl

/-- What stands behind the first mark of a query or a fragment does not matter. -/
theorem dropQuery_clean {front : List Char} {mark : Char}
    (hfront : ∀ c ∈ front, isQueryMark c = false) (hmark : isQueryMark mark = true)
    (back : List Char) : dropQuery (clean (front ++ mark :: back)) =
      withoutBreaks (front.dropWhile (· ≤ ' ')) := by
  have hstays : decide (mark ≤ ' ') = false ∧ withoutBreaks [mark] = [mark] := by
    rw [isQueryMark, Bool.or_eq_true, beq_iff_eq, beq_iff_eq] at hmark
    rcases hmark with rfl | rfl <;> exact ⟨by decide, by decide⟩
  have hopen : ∀ c ∈ withoutBreaks (front.dropWhile (· ≤ ' ')), (!isQueryMark c) = true := by
    intro c hc
    have hmem := (List.dropWhile_suffix _).subset (List.mem_filter.mp hc).1
    rw [hfront c hmem]
    rfl
  show (withoutBreaks (Text.dropEndWhile _ _)).takeWhile (!isQueryMark ·) = _
  rw [Text.dropWhile_append_avoids (Text.avoids_cons hstays.1 back),
    Text.dropEndWhile_append_cons hstays.1, withoutBreaks_append, withoutBreaks_cons, hstays.2,
    List.singleton_append]
  exact Text.takeWhile_append_of_avoids hopen (Text.avoids_cons (by rw [hmark]; rfl) _)

/-! ### Schemes and authorities -/

/-- Slashes at the end of a text come behind its scheme. -/
theorem splitScheme?_slashes (text : List Char) (k : Nat) :
    splitScheme? (text ++ List.replicate k '/') =
      (splitScheme? text).map fun found => (found.1, found.2 ++ List.replicate k '/') := by
  -- Slashes are no part of a scheme, so the scheme ends where it did.
  have havoids : Avoids isSchemePart (List.replicate k '/') := by
    intro c hc
    rw [List.eq_of_mem_replicate (List.mem_of_mem_head? hc)]
    decide
  have hdrop := Text.dropWhile_append_avoids havoids text
  cases text with
  | nil => cases k <;> rfl
  | cons first text =>
    have hhead : (first :: text ++ List.replicate k '/').head? = (first :: text).head? := rfl
    have htake : (first :: text ++ List.replicate k '/').takeWhile isSchemePart =
        (first :: text).takeWhile isSchemePart := by
      obtain ⟨front, htext, htake, hfront, hrest⟩ :=
        Text.exists_dropWhile isSchemePart (first :: text)
      rw [htake, htext, List.append_assoc]
      refine Text.takeWhile_append_of_avoids hfront (hrest.append fun _ => havoids)
    rw [splitScheme?, splitScheme?, hhead, hdrop, htake]
    cases (first :: text).head?.any Text.isBasicLetter with
    | false => rfl
    | true =>
      cases (first :: text).dropWhile isSchemePart with
      | nil => cases k <;> rfl
      | cons c rest =>
        by_cases hc : c = ':'
        · rw [hc]
          rfl
        · simp [hc]

/-- What follows the scheme is the end of the text. -/
theorem exists_of_splitScheme? {cs rest : List Char} {scheme : String}
    (h : splitScheme? cs = some (scheme, rest)) : ∃ front, cs = front ++ rest := by
  unfold splitScheme? at h
  split at h
  · split at h
    · next hdrop =>
      obtain ⟨-, rfl⟩ := Prod.mk.inj (Option.some.inj h)
      obtain ⟨front, hfront⟩ := List.dropWhile_suffix (l := cs) isSchemePart
      rw [hdrop] at hfront
      exact ⟨front ++ [':'], by rw [← hfront, List.append_assoc]; rfl⟩
    · cases h
  · cases h

section Ok

variable {α β : Type} {x : Except Fault α} {b : β}

theorem exists_of_bind_eq_ok {f : α → Except Fault β} (h : (x >>= f) = .ok b) :
    ∃ a, x = .ok a ∧ f a = .ok b := by
  cases x with
  | error fault => cases h
  | ok a => exact ⟨a, rfl, h⟩

theorem exists_of_map_eq_ok {f : α → β} (h : x.map f = .ok b) : ∃ a, x = .ok a ∧ f a = b := by
  cases x with
  | error fault => cases h
  | ok a => exact ⟨a, rfl, Except.ok.inj h⟩

end Ok

namespace Address

/-- The address goes to the web. -/
def IsWeb (b : Address) : Prop := b.scheme = "http" ∨ b.scheme = "https"

theorem IsWeb.exists_port {b : Address} (h : b.IsWeb) :
    ∃ port, schemeKind b.scheme = .web port := by
  rcases h with h | h <;> rw [h]
  · exact ⟨80, rfl⟩
  · exact ⟨443, rfl⟩

end Address

section Names

variable [DomainNames]

/-- A name of plain characters names itself, under all rules for domain names, unless its end is a
number. -/
theorem Host.ofText_plain {cs : List Char} (hplain : ∀ c ∈ cs, isPlain c = true) (hne : cs ≠ [])
    (hname : Ipv4.endsInNumber cs = false) : Host.ofText cs = .ok (.name (String.ofList cs)) := by
  have hpercent : ¬cs.contains '%' = true := by
    rw [List.contains_iff_mem]
    exact fun hmem => absurd (hplain _ hmem) (by decide)
  have hbasic : (Percent.decode? cs).bind DomainNames.toBasic? = some cs := by
    rw [Percent.decode?, if_neg hpercent, Option.bind_some, DomainNames.toBasic?_plain cs hplain]
  obtain ⟨c, rest, rfl⟩ := List.exists_cons_of_ne_nil hne
  unfold Host.ofText
  split
  · next heq =>
    cases heq
    exact absurd (hplain '[' List.mem_cons_self) (by decide)
  · rw [hbasic]
    simp only [hname, Bool.false_eq_true, if_false]

/-- A web address names a host, so that its text does not only have slashes behind the scheme. -/
theorem exists_of_readWeb_eq_ok {scheme : String} {port : Nat} {cs : List Char} {b : Address}
    (h : readWeb scheme port cs = .ok b) : ∃ c ∈ cs, isWebSlash c = false := by
  by_contra hnone
  have hall : cs.dropWhile isWebSlash = [] := by
    rw [List.dropWhile_eq_nil_iff]
    intro c hc
    by_contra hslash
    exact hnone ⟨c, hc, Bool.not_eq_true _ ▸ hslash⟩
  rw [readWeb, hall] at h
  cases h

/-- A web address is its authority and the segments behind it. -/
theorem readWeb_eq (scheme : String) (port : Nat) (cs : List Char) :
    readWeb scheme port cs =
      (readAuthority (.web port) ((cs.dropWhile isWebSlash).takeWhile (!isWebSlash ·))).map
        fun authority => ⟨scheme, authority, .segments (readSegments false isWebSlash
          (((cs.dropWhile isWebSlash).dropWhile (!isWebSlash ·)).drop 1))⟩ := by
  rw [readWeb]
  cases readAuthority (.web port) ((cs.dropWhile isWebSlash).takeWhile (!isWebSlash ·)) <;> rfl

/-- Slashes at the end of what follows a scheme of the web come behind the authority. One of them
is the only one there if the text ends in a name. -/
theorem exists_readWeb_slashes (scheme : String) (port : Nat) {cs : List Char}
    (h : ∃ c ∈ cs, isWebSlash c = false) : ∃ authority kept,
      (∀ front, EndsInName isWebSlash (front ++ cs) →
        EndsInOneSlash (segmentsText (kept ++ [""]))) ∧
      ∀ k, ∃ j, (k = 1 → j = 1) ∧ readWeb scheme port (cs ++ List.replicate k '/') =
        (readAuthority (.web port) authority).map fun authority =>
          ⟨scheme, authority, .segments (kept ++ List.replicate j "")⟩ := by
  obtain ⟨slashes, hcs, -, hslashes, hhost⟩ := Text.exists_dropWhile isWebSlash cs
  obtain ⟨host, hrest, htake, hclear, hpath⟩ :=
    Text.exists_dropWhile (!isWebSlash ·) (cs.dropWhile isWebSlash)
  generalize cs.dropWhile isWebSlash = rest at hcs hhost hrest htake hpath
  generalize rest.dropWhile (!isWebSlash ·) = path at hrest hpath
  have hne : rest ≠ [] := by
    rintro rfl
    obtain ⟨c, hc, hother⟩ := h
    rw [hcs, List.append_nil] at hc
    rw [hslashes c hc] at hother
    cases hother
  have hmarks : ∀ k, Avoids (!isWebSlash ·) (List.replicate k '/') := by
    intro k c hc
    rw [List.eq_of_mem_replicate (List.mem_of_mem_head? hc)]
    decide
  have hslash : isWebSlash '/' = true := rfl
  obtain ⟨kept, hone, hkept⟩ := exists_readSegments_slashes hslash false path
  refine ⟨host, kept, fun front hname => hone fun hpathne => ?_, fun k => ?_⟩
  · -- The path begins with a slash, so the name is behind it and none of the host.
    obtain ⟨c, path, rfl⟩ := List.exists_cons_of_ne_nil hpathne
    have hc : isWebSlash c = true := by simpa using hpath c rfl
    rw [hcs, hrest, ← List.append_assoc, ← List.append_assoc] at hname
    exact hname.of_slash hc
  obtain ⟨j, hj, hnames⟩ := hkept k
  refine ⟨j, hj, ?_⟩
  have hdropped : (cs ++ List.replicate k '/').dropWhile isWebSlash =
      host ++ (path ++ List.replicate k '/') := by
    rw [hcs, List.append_assoc, Text.dropWhile_append_of_avoids hslashes
      (hhost.append fun hnil => absurd hnil hne), hrest, List.append_assoc]
  have hend : Avoids (!isWebSlash ·) (path ++ List.replicate k '/') :=
    hpath.append fun _ => hmarks k
  rw [readWeb_eq, hdropped, Text.takeWhile_append_of_avoids hclear hend,
    Text.dropWhile_append_of_avoids hclear hend, hnames]

/-! ### Web addresses -/

theorem scheme_of_readFile {scheme : String} {cs : List Char} {b : Address}
    (h : readFile scheme cs = .ok b) : b.scheme = scheme := by
  unfold readFile at h
  dsimp only at h
  split at h
  · split at h
    all_goals
      obtain ⟨found, -, h⟩ := exists_of_bind_eq_ok h
      cases h
      rfl
  all_goals
    obtain ⟨found, -, h⟩ := exists_of_bind_eq_ok h
    cases h
    rfl

theorem scheme_of_readOther {scheme : String} {cs : List Char} {b : Address}
    (h : readOther scheme cs = .ok b) : b.scheme = scheme := by
  unfold readOther at h
  split at h
  · obtain ⟨authority, -, h⟩ := exists_of_bind_eq_ok h
    cases h
    rfl
  · cases h
    rfl
  · cases h
    rfl

namespace Address

/-- A text with a web scheme is read as a web address. -/
theorem parse_of_splitScheme? {s scheme : String} {rest : List Char} {port : Nat}
    (hscheme : splitScheme? (dropQuery (clean s.toList)) = some (scheme, rest))
    (hport : schemeKind scheme = .web port) : parse s = readWeb scheme port rest := by
  simp only [parse, hscheme, hport]

/-- A web address is read behind its scheme. -/
theorem exists_of_parse_web {s : String} {b : Address} (h : parse s = .ok b) (hweb : b.IsWeb) :
    ∃ port rest, schemeKind b.scheme = .web port ∧
      splitScheme? (dropQuery (clean s.toList)) = some (b.scheme, rest) ∧
      readWeb b.scheme port rest = .ok b := by
  obtain ⟨port, hport⟩ := hweb.exists_port
  unfold parse at h
  split at h
  · cases h
  · next scheme rest hscheme =>
    -- No reader changes the scheme.
    have hsame : b.scheme = scheme := by
      split at h
      · rw [readWeb_eq] at h
        obtain ⟨authority, -, rfl⟩ := exists_of_map_eq_ok h
        rfl
      · exact scheme_of_readFile h
      · exact scheme_of_readOther h
    rw [← hsame, hport] at h
    exact ⟨port, rest, hport, hsame ▸ hscheme, h⟩

/-- The path of a web address has a last segment, which holds no slash. -/
theorem exists_path_concat {s : String} {b : Address} (h : parse s = .ok b) (hweb : b.IsWeb) :
    ∃ names last, b.path = .segments (names ++ [last]) ∧ '/' ∉ last.toList := by
  obtain ⟨port, rest, -, -, hread⟩ := exists_of_parse_web h hweb
  rw [readWeb_eq] at hread
  obtain ⟨authority, -, hb⟩ := exists_of_map_eq_ok hread
  have hslash : isWebSlash '/' = true := rfl
  obtain ⟨names, last, hnames, hlast⟩ := exists_readSegments_concat hslash false
    (((rest.dropWhile isWebSlash).dropWhile (!isWebSlash ·)).drop 1)
  refine ⟨names, last, ?_, hlast⟩
  rw [← hb, hnames]

/-- Slashes behind a query or a fragment do not belong to the address. -/
theorem parse_slashes_of_query {text : List Char} (hquery : ∃ c ∈ text, isQueryMark c = true)
    (k : Nat) :
    parse (String.ofList (text ++ List.replicate k '/')) =
      parse (String.ofList (text ++ ['/'])) := by
  obtain ⟨front, htext, -, hfront, hrest⟩ := Text.exists_dropWhile (!isQueryMark ·) text
  have hclear : ∀ c ∈ front, isQueryMark c = false := by simpa using hfront
  generalize text.dropWhile (!isQueryMark ·) = rest at htext hrest
  subst htext
  cases rest with
  | nil =>
    obtain ⟨c, hc, hmark⟩ := hquery
    rw [List.append_nil] at hc
    rw [hclear c hc] at hmark
    cases hmark
  | cons mark rest =>
    -- What is added stands behind the first mark, and is not read.
    have hmark : isQueryMark mark = true := by simpa using hrest mark rfl
    unfold parse
    rw [String.toList_ofList, String.toList_ofList, List.append_assoc, List.append_assoc,
      List.cons_append, List.cons_append, dropQuery_clean hclear hmark,
      dropQuery_clean hclear hmark]

/-- Slashes at the end of the text of a web address are empty segments at the end of its path. A
single one is the only slash there if the text ends in a name. -/
theorem exists_parse_slashes {text : List Char} {k : Nat} {b : Address}
    (h : parse (String.ofList (text ++ List.replicate k '/')) = .ok b) (hweb : b.IsWeb)
    (hquery : ∀ c ∈ text, isQueryMark c = false)
    (hend : 0 < k ∨ ∃ c ∈ (withoutBreaks text).getLast?, ' ' < c) :
    ∃ kept j, b.path = .segments (kept ++ List.replicate j "") ∧
      parse (String.ofList (text ++ ['/'])) = .ok { b with path := .segments (kept ++ [""]) } ∧
      (EndsInName isWebSlash (withoutBreaks text) →
        EndsInOneSlash (segmentsText (kept ++ [""]))) := by
  -- The text is read with its own slashes and with a single one, so the number is left open.
  have hscheme_of : ∀ m, (0 < m ∨ ∃ c ∈ (withoutBreaks text).getLast?, ' ' < c) →
      splitScheme? (dropQuery (clean (text ++ List.replicate m '/'))) =
        (splitScheme? (withoutBreaks (text.dropWhile (· ≤ ' ')))).map fun found =>
          (found.1, found.2 ++ List.replicate m '/') := by
    intro m hm
    have hclear : ∀ c ∈ clean (text ++ List.replicate m '/'), isQueryMark c = false := by
      intro c hc
      rcases List.mem_append.mp (mem_of_mem_clean hc) with hc | hc
      · exact hquery c hc
      · rw [List.eq_of_mem_replicate hc]
        rfl
    rw [dropQuery_of_no_mark hclear, clean_slashes hm, splitScheme?_slashes]
  obtain ⟨port, rest, hport, hscheme, hread⟩ := exists_of_parse_web h hweb
  rw [String.toList_ofList, hscheme_of k hend, Option.map_eq_some_iff] at hscheme
  obtain ⟨⟨scheme, front⟩, hfront, hfound⟩ := hscheme
  obtain ⟨rfl, rfl⟩ := Prod.mk.inj hfound
  have hother : ∃ c ∈ front, isWebSlash c = false := by
    obtain ⟨c, hc, hother⟩ := exists_of_readWeb_eq_ok hread
    rcases List.mem_append.mp hc with hc | hc
    · exact ⟨c, hc, hother⟩
    · rw [List.eq_of_mem_replicate hc] at hother
      cases hother
  obtain ⟨host, kept, hname, hslashes⟩ := exists_readWeb_slashes b.scheme port hother
  obtain ⟨j, -, hbase⟩ := hslashes k
  obtain ⟨i, hi, hone⟩ := hslashes 1
  rw [hread] at hbase
  obtain ⟨authority, hauthority, hb⟩ := exists_of_map_eq_ok hbase.symm
  refine ⟨kept, j, by rw [← hb], ?_, fun hend => ?_⟩
  · have hdirectory := hscheme_of 1 (.inl Nat.one_pos)
    rw [hfront, ← String.toList_ofList (l := text ++ List.replicate 1 '/')] at hdirectory
    rw [← List.replicate_one, parse_of_splitScheme? hdirectory hport, hone, hauthority, hi rfl,
      ← hb]
    rfl
  · obtain ⟨blanks, hblanks⟩ := List.dropWhile_suffix (l := text) (· ≤ ' ')
    obtain ⟨opening, hopening⟩ := exists_of_splitScheme? hfront
    rw [← hblanks, withoutBreaks_append, hopening, ← List.append_assoc] at hend
    exact hname _ hend

end Address

end Names

end PolyLex.Url
