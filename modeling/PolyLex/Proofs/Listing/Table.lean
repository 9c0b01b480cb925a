import PolyLex.Proofs.Remote.Consistency
import PolyLex.Proofs.Scan.Lexemes
import PolyLex.Proofs.Text.Controls

/-!
# The lines of a table

A row shows the place, the kind and the quoted lexeme of a token, a line of the summary a name and
its count. Only names stand as they are, so the control characters of a row are those of the kind's
name (`controls_row`), and a table keeps to its lines exactly if the names that it shows have none
(`Listing.tabular_iff`).

* A source is scanned to known kinds, whatever the profile, and their names have none.
* A payload may report any name that is not blank. It is shown as it is reported, unless it stands
  for a known kind (`shows_accept_iff`); so one line feed in it is enough to break a row
  (`accept_brokenName`).
-/

namespace PolyLex

open Json Remote Scan Text

namespace Listing

/-- The lines of the table of a listing: a row for each token, then the summary. -/
def tableLines (l : Listing) : List String := l.tokens.map Token.row ++ l.summaryLines

/-- A name that stands in the table: that of a kind of its tokens, or one in the summary. -/
def Shows (l : Listing) (name : String) : Prop :=
  Occurs l.tokens name ∨ ∃ e ∈ l.summary.entries, e.1 = name

/-- No line of the table brings control characters along. -/
def Tabular (l : Listing) : Prop := ∀ line ∈ l.tableLines, controls line = []

end Listing

/-! ### The control characters of a line -/

/-- A row has the control characters of its columns and no others. -/
theorem controls_tableRow (place kind value : String) :
    controls (tableRow place kind value) = controls place ++ controls kind ++ controls value := by
  simp [tableRow]

/-- A place is written without control characters. -/
theorem Token.controls_place (t : Token) : controls t.place = [] := by
  have hcolon : controls ":" = [] := by decide
  unfold place
  split
  · simp [hcolon]
  · exact controls_repr _
  · decide

/-- Of a token only the name of its kind can bring control characters into its row. -/
theorem Token.controls_row (t : Token) : controls t.row = controls t.kind.name := by
  rw [row, controls_tableRow, controls_place, controls_quote, List.nil_append, List.append_nil]

/-- The line of a count has the control characters of its kind and no others. -/
theorem controls_countLine (name : String) (count : Nat) :
    controls (countLine name count) = controls name := by
  simp [countLine]

theorem controls_total : controls "total" = [] := by decide

namespace Listing

variable {l : Listing}

/-- There is a line for each token, one for each entry of the summary and one for the total. -/
theorem length_tableLines (l : Listing) :
    l.tableLines.length = l.tokens.length + l.summary.entries.length + 1 := by
  simp only [tableLines, summaryLines, List.length_append, List.length_map, List.length_singleton,
    Nat.add_assoc]

/-- A table keeps to its lines exactly if the names in it have no control characters. -/
theorem tabular_iff : l.Tabular ↔ ∀ name, l.Shows name → controls name = [] := by
  simp only [Tabular, tableLines, summaryLines, List.forall_mem_append, List.forall_mem_map,
    List.forall_mem_singleton, Token.controls_row, controls_countLine, controls_total, and_true]
  constructor
  · rintro ⟨htokens, hentries⟩ name (⟨t, ht, rfl⟩ | ⟨e, he, rfl⟩)
    · exact htokens t ht
    · exact hentries e he
  · intro hnames
    exact ⟨fun t ht => hnames _ (.inl ⟨t, ht, rfl⟩), fun e he => hnames _ (.inr ⟨e, he, rfl⟩)⟩

/-- Then each of them is a physical line of what is printed. -/
theorem Tabular.lines_printed (h : l.Tabular) :
    lines (Cli.lines l.tableLines).toList = l.tableLines.map fun line => line.toList ++ ['\n'] :=
  lines_lines fun line hline => not_mem_of_controls (h line hline)

end Listing

/-! ### The names of kinds -/

/-- The name of a known kind has no control characters. -/
theorem Kind.controls_name_of_isKnown {kind : Kind} (h : kind.isKnown = true) :
    controls kind.name = [] := by
  cases kind with
  | other name => cases h
  | _ => decide

/-- A name that is read is shown as it stands, unless it is that of a known kind. -/
theorem Kind.controls_ofName {name : String} :
    controls (ofName name).name = [] ↔ (ofName name).isKnown = true ∨ controls name = [] := by
  rcases ofName_cases name with hknown | hother
  · exact iff_of_true (controls_name_of_isKnown hknown) (.inl hknown)
  · rw [hother]
    exact ⟨.inr, fun h => h.resolve_left Bool.false_ne_true⟩

/-- The names in a summary are those that it counts. -/
theorem Summary.Holds.mem_entries_iff {s : Summary} {p : String → Prop} {number : String → Nat}
    (h : s.Holds p number) {name : String} : (∃ e ∈ s.entries, e.1 = name) ↔ p name := by
  constructor
  · rintro ⟨e, he, rfl⟩
    exact ((h e.1 e.2).mp (get?_of_mem he)).1
  · intro hp
    exact ⟨_, Keyed.mem_of_find? ((h name (number name)).mpr ⟨hp, rfl⟩), rfl⟩

/-- A recomputed summary shows the kinds that occur. -/
theorem Listing.shows_ofTokens_iff {tokens : List Token} {name : String} :
    (Listing.ofTokens tokens).Shows name ↔ Occurs tokens name := by
  rw [Shows, ofTokens, (holds_ofTokens tokens).mem_entries_iff, or_self]

/-! ### Scans -/

/-- A source is scanned to known kinds, whatever the profile holds. -/
theorem Profile.isKnown_scan (p : Profile) (source : String) :
    ∀ t ∈ (p.scan source).tokens, t.kind.isKnown = true :=
  Cursor.isKnown_feedLines p {} _

/-- The table of a scan has one line for each token and each entry. -/
theorem Profile.tabular_scan (p : Profile) (source : String) : (p.scan source).Tabular := by
  rw [Listing.tabular_iff]
  intro name hname
  rw [scan, Listing.shows_ofTokens_iff] at hname
  obtain ⟨t, ht, rfl⟩ := hname
  exact Kind.controls_name_of_isKnown (p.isKnown_scan source t ht)

/-! ### Payloads -/

namespace Remote

variable {items : List Value} {tokens : List Token} {name : String}

/-- The names that a payload reports: the kinds of its tokens and the names in its summary. -/
inductive Reports : Value → String → Prop
  | kind {members token : List (String × Value)} {items : List Value} {reported : String} :
      member? members "tokens" = some (.arr items) → .obj token ∈ items →
      member? token "type" = some (.str reported) → Reports (.obj members) reported
  | count {members counts : List (String × Value)} {reported : String} {v : Value} :
      member? members "summary" = some (.obj counts) → (reported, v) ∈ counts →
      Reports (.obj members) reported

/-- The kind of a valid token is read from its type. -/
theorem IsToken.exists_type {v : Value} {t : Token} (h : IsToken v t) : ∃ token reported,
    v = .obj token ∧ member? token "type" = some (.str reported) ∧
      t.kind = Kind.ofName reported := by
  cases h with
  | @intro token reported _ _ _ htype =>
    refine ⟨token, reported, rfl, htype, ?_⟩
    -- The field is reduced first: what would be unfolded instead is the table of names.
    dsimp only

/-- The kinds of the tokens are those that the items report. -/
theorem occurs_iff (h : List.Forall₂ IsToken items tokens) : Occurs tokens name ↔
    ∃ token reported, .obj token ∈ items ∧ member? token "type" = some (.str reported) ∧
      (Kind.ofName reported).name = name := by
  constructor
  · rintro ⟨t, ht, rfl⟩
    obtain ⟨item, hitem, htoken⟩ := exists_item_of_mem h t ht
    obtain ⟨token, reported, rfl, htype, hkind⟩ := htoken.exists_type
    exact ⟨token, reported, hitem, htype, by rw [hkind]⟩
  · rintro ⟨token, reported, hitem, htype, rfl⟩
    obtain ⟨t, ht, htoken⟩ := exists_token_of_mem h _ hitem
    obtain ⟨_, _, heq, htype', hkind⟩ := htoken.exists_type
    cases heq
    cases htype.symm.trans htype'
    exact ⟨t, ht, by rw [hkind]⟩

/-- What an accepted payload shows are the names that it reports, each as the kind that it stands
for is spelled. -/
theorem shows_accept_iff {v : Value} (hfit : v.Fit) {a : Accepted} (h : accept v = .ok a) :
    a.listing.Shows name ↔ ∃ reported, Reports v reported ∧ (Kind.ofName reported).name = name := by
  obtain ⟨members, items, tokens, summary, consistent, rfl, hitems, htokens, hsummary, rfl⟩ :=
    accept_eq_ok_iff.mp h
  have hall := (readTokens_eq_ok_iff (fit_of_items hfit hitems) 0).mp htokens
  rw [Listing.Shows]
  constructor
  -- What the listing shows comes from a token, or from the counts.
  · rintro (hoccurs | hentry)
    · obtain ⟨token, reported, hmem, htype, hname⟩ := (occurs_iff hall).mp hoccurs
      exact ⟨reported, .kind hitems hmem htype, hname⟩
    · rcases readSummary_eq_ok_iff.mp hsummary with ⟨-, rfl, -⟩ | ⟨counts, hcounts, hread, -⟩
      · rw [(holds_ofTokens tokens).mem_entries_iff, occurs_iff hall] at hentry
        obtain ⟨token, reported, hmem, htype, hname⟩ := hentry
        exact ⟨reported, .kind hitems hmem htype, hname⟩
      · rw [(holds_of_readCounts hread).mem_entries_iff] at hentry
        obtain ⟨m, hm, hname⟩ := hentry
        exact ⟨m.1, .count hcounts hm, hname⟩
  -- What is reported with counts is kept, also if no token is of that kind.
  · rintro ⟨reported, hreports, hname⟩
    cases hreports with
    | @kind _ token items' _ hitems' hmem htype =>
      cases hitems.symm.trans hitems'
      exact .inl ((occurs_iff hall).mpr ⟨token, reported, hmem, htype, hname⟩)
    | @count _ counts _ _ hcounts hmem =>
      rcases readSummary_eq_ok_iff.mp hsummary with ⟨habsent, -⟩ | ⟨counts', hcounts', hread, -⟩
      · simp [hcounts] at habsent
      · cases hcounts.symm.trans hcounts'
        refine .inr ?_
        rw [(holds_of_readCounts hread).mem_entries_iff]
        exact ⟨_, hmem, hname⟩

end Remote

/-! ### Tables of listings that are handed out -/

/-- Only names bring control characters into the table of a listing: a row has those of the kind's
name, a line of the summary those of the name that is counted, and the total none. Without any, the
table is printed on one physical line for each token, for each entry of the summary and for the
total. The listing of a scan has such a table; that of an accepted payload has one exactly if every
name that is reported is that of a known kind or has no control characters. -/
theorem tabular_listing (l : Listing) :
    (∀ t ∈ l.tokens, controls t.row = controls t.kind.name) ∧
    l.summaryLines.map controls = l.summary.entries.map (fun e => controls e.1) ++ [[]] ∧
    (l.Tabular →
      l.tableLines.length = l.tokens.length + l.summary.entries.length + 1 ∧
      lines (Cli.lines l.tableLines).toList =
        l.tableLines.map fun line => line.toList ++ ['\n']) ∧
    (∀ (p : Profile) (source : String), p.scan source = l → l.Tabular) ∧
    ∀ (v : Value) (a : Accepted), v.Fit → accept v = .ok a → a.listing = l →
      (l.Tabular ↔ ∀ reported, Reports v reported →
        (Kind.ofName reported).isKnown = true ∨ controls reported = []) := by
  refine ⟨fun t _ => t.controls_row, ?_, fun h => ⟨l.length_tableLines, h.lines_printed⟩, ?_, ?_⟩
  · simp only [Listing.summaryLines, List.map_append, List.map_map, Function.comp_def,
      controls_countLine, List.map_cons, List.map_nil, controls_total]
  · rintro p source rfl
    exact p.tabular_scan source
  -- A payload's listing shows the kinds that it reports and no others.
  · rintro v a hfit h rfl
    rw [Listing.tabular_iff]
    constructor
    · intro hnames reported hreports
      exact Kind.controls_ofName.mp (hnames _ ((shows_accept_iff hfit h).mpr ⟨_, hreports, rfl⟩))
    · intro hnames name hname
      obtain ⟨reported, hreports, rfl⟩ := (shows_accept_iff hfit h).mp hname
      exact Kind.controls_ofName.mpr (hnames reported hreports)

/-- A payload that reports a known kind with a line feed behind its name, and counts an unknown
one. -/
def spacedName : Value :=
  .obj [("summary", .obj [("macro", .nat 1)]),
    ("tokens", .arr [.obj [("type", .str "keyword\n"), ("value", .str "a\nb")]])]

/-- A name with a blank in it is one line, as it is read as one kind. -/
theorem tabular_listing_spacedName : spacedName.Fit ∧
    ∃ a, accept spacedName = .ok a ∧ a.listing.Tabular ∧
      a.listing.tableLines = ["-         keyword      \"a\\nb\"", "macro             1",
        "total             1"] := by
  have hfit : spacedName.Fit := by
    refine .obj fun m hm => ?_
    simp only [List.mem_cons, List.not_mem_nil, or_false] at hm
    rcases hm with rfl | rfl
    · refine .obj fun m hm => ?_
      rw [List.mem_singleton.mp hm]
      exact .int (by decide) (by decide)
    · refine .arr fun item hitem => ?_
      rw [List.mem_singleton.mp hitem]
      refine .obj fun m hm => ?_
      simp only [List.mem_cons, List.not_mem_nil, or_false] at hm
      rcases hm with rfl | rfl
      · exact .str _
      · exact .str _
  have hlines : (accept spacedName).toOption.any (fun a => a.listing.tableLines =
      ["-         keyword      \"a\\nb\"", "macro             1", "total             1"]) = true := by
    decide +kernel
  obtain ⟨a, ha, hlines⟩ := exists_ok_of_any hlines
  refine ⟨hfit, a, ha, ?_, of_decide_eq_true hlines⟩
  obtain ⟨-, -, -, -, haccepted⟩ := tabular_listing a.listing
  refine (haccepted spacedName a hfit ha rfl).mpr fun reported hreports => ?_
  -- One name is a known kind with a line feed behind it, the other has no control character.
  cases hreports with
  | @kind _ token items _ hitems hmem htype =>
    obtain rfl : items = [.obj [("type", .str "keyword\n"), ("value", .str "a\nb")]] := by
      simpa [member?, Keyed.find?, eq_comm] using hitems
    cases List.mem_singleton.mp hmem
    obtain rfl : reported = "keyword\n" := by simpa [member?, Keyed.find?, eq_comm] using htype
    exact .inl (by decide +kernel)
  | @count _ counts _ _ hcounts hmem =>
    obtain rfl : counts = [("macro", .nat 1)] := by
      simpa [member?, Keyed.find?, eq_comm] using hcounts
    cases List.mem_singleton.mp hmem
    exact .inr (by decide +kernel)

/-- A payload whose token and summary name a kind with a line feed in the middle. -/
def brokenName : String :=
  "\x7b\"tokens\":[\x7b\"type\":\"a\\nb\",\"value\":\"x\",\"line\":1,\"position\":1\x7d]," ++
    "\"summary\":\x7b\"a\\nb\":1\x7d\x7d"

/-- The payload is accepted, and its three lines take up five when they are printed. -/
theorem accept_brokenName : ∃ v a, parse brokenName = .ok v ∧ accept v = .ok a ∧
    a.listing.tableLines =
      ["1:1       a\nb          \"x\"", "a\nb               1", "total             1"] ∧
    ¬ a.listing.Tabular ∧ (Cli.lines a.listing.tableLines).toList.count '\n' = 5 := by
  have hlines : (parse brokenName).toOption.any (fun v => (accept v).toOption.any fun a =>
      a.listing.tableLines = ["1:1       a\nb          \"x\"", "a\nb               1",
        "total             1"]) = true := by
    decide +kernel
  obtain ⟨v, hv, hlines⟩ := exists_ok_of_any hlines
  obtain ⟨a, ha, hlines⟩ := exists_ok_of_any hlines
  have hlines := of_decide_eq_true hlines
  refine ⟨v, a, hv, ha, hlines, fun htabular => ?_, by rw [hlines]; decide +kernel⟩
  rw [Listing.Tabular, hlines] at htabular
  exact absurd (htabular _ List.mem_cons_self) (by decide +kernel)

end PolyLex
