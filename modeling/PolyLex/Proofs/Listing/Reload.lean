import PolyLex.Proofs.Listing.Document
import PolyLex.Proofs.Remote.Consistency
import PolyLex.Proofs.Scan.Lexemes
import PolyLex.Proofs.Scan.Positions
import PolyLex.Proofs.Token.Summary

/-!
# Listings that are handed out

Listings come from the scanner or from an accepted payload (`Produced`). Both make only such as a
document can hold (`Listing.Exact`), so exporting a listing, reloading it and checking it again
leads back to the same listing (`reload_produced`).

* `exact_scan` — the scanner: its kinds are known, its places and counts are bounded by the source;
* `exact_of_accept` — a payload: what is accepted has been brought to the names that kinds are read
  by, and its numbers come from a document.
-/

namespace PolyLex

open Json Remote Scan

/-! ### Kinds and summaries -/

/-- The name of a known kind has a visible character. -/
theorem Kind.visible_of_isKnown {kind : Kind} (h : kind.isKnown = true) :
    ∃ c ∈ kind.name.toList, Text.isBlank c = false := by
  have hname : kind.name.toList.any (fun c => !Text.isBlank c) = true := by
    cases kind with
    | other name => cases h
    | _ => decide +kernel
  simpa using hname

/-- A name that is not blank stands for a kind whose name is not blank. -/
theorem Kind.visible_ofName {name : String} (h : ∃ c ∈ name.toList, Text.isBlank c = false) :
    ∃ c ∈ (ofName name).name.toList, Text.isBlank c = false := by
  rcases ofName_cases name with hknown | hother
  · exact visible_of_isKnown hknown
  · rw [hother]
    exact h

/-- Drawing a summary up from tokens keeps their names, and no count is larger than all tokens. -/
theorem Summary.exact_ofTokens {tokens : List Token} (h : ∀ t ∈ tokens, t.Exact)
    (hlen : tokens.length < countRange) : (ofTokens tokens).Exact := by
  intro name n hn
  rw [get?_ofTokens] at hn
  split at hn
  · cases hn
  · next hcount =>
    cases hn
    -- a name that is counted is that of some token
    obtain ⟨t, ht, hname⟩ := List.countP_pos_iff.mp (Nat.pos_of_ne_zero hcount)
    constructor
    · rw [← of_decide_eq_true hname, (h t ht).kind]
    · exact Nat.lt_of_le_of_lt List.countP_le_length hlen

/-- Reading counts settles their names, and their sums are machine words. -/
theorem Summary.exact_of_readCounts {counts : List (String × Value)} (hfit : ∀ m ∈ counts, m.2.Fit)
    {reported : Summary} (h : Remote.readCounts ∅ counts = .ok reported) : reported.Exact := by
  obtain ⟨-, hsums⟩ := (exists_readCounts_empty_iff hfit).mp ⟨reported, h⟩
  intro name n hn
  obtain ⟨⟨m, -, rfl⟩, rfl⟩ := (holds_of_readCounts h name n).mp hn
  exact ⟨by rw [Kind.ofName_name_ofName], hsums _⟩

/-! ### Payloads -/

/-- A token that was validated has places that fit machine words. -/
theorem Token.exact_of_isToken {v : Value} {t : Token} (h : IsToken v t) : t.Exact := by
  have hplace : ∀ {field : Option Value} {place : Option Nat}, IsPosition field place →
      ∀ n ∈ place, 0 < n ∧ n < countRange := by
    intro field place hplace n hn
    cases hplace with
    | absent => cases hn
    | null => cases hn
    | given hpos hrange =>
      cases hn
      exact ⟨hpos, hrange⟩
  cases h with
  | @intro _ name _ _ _ _ hvisible _ hline hcolumn =>
    constructor
    -- The fields are reduced first: what would be unfolded instead is the table of names.
    · dsimp only
      exact Kind.ofName_name_ofName name
    · dsimp only
      exact Kind.visible_ofName hvisible
    · exact hplace hline
    · exact hplace hcolumn

/-- A summary that is read, or drawn up for want of one, is exact, and it is said to be consistent
if it agrees with the tokens. -/
theorem exact_of_readSummary {members : List (String × Value)} (hfit : (Value.obj members).Fit)
    {tokens : List Token} (htokens : ∀ t ∈ tokens, t.Exact) (hlen : tokens.length < countRange)
    {summary : Summary} {consistent : Bool}
    (h : readSummary members tokens = .ok (summary, consistent)) :
    summary.Exact ∧ consistent = decide (summary = Summary.ofTokens tokens) := by
  rcases readSummary_eq_ok_iff.mp h with ⟨-, rfl, rfl⟩ | ⟨counts, hcounts, hreported, rfl⟩
  · exact ⟨Summary.exact_ofTokens htokens hlen, (decide_eq_true rfl).symm⟩
  · exact ⟨Summary.exact_of_readCounts (fit_of_counts hfit hcounts) hreported, rfl⟩

/-- What is accepted is an exact listing, with the flag that it deserves. -/
theorem exact_of_accept {v : Value} (hfit : v.Fit) {a : Accepted} (h : accept v = .ok a)
    (hlen : a.listing.tokens.length < countRange) :
    a.listing.Exact ∧
      a.consistent = decide (a.listing.summary = Summary.ofTokens a.listing.tokens) := by
  obtain ⟨members, items, tokens, summary, consistent, rfl, hitems, htokens, hsummary, rfl⟩ :=
    accept_eq_ok_iff.mp h
  have hall := (readTokens_eq_ok_iff (fit_of_items hfit hitems) 0).mp htokens
  have hexact : ∀ t ∈ tokens, t.Exact := by
    intro t ht
    obtain ⟨_, -, htoken⟩ := exists_item_of_mem hall t ht
    exact Token.exact_of_isToken htoken
  obtain ⟨hreported, hconsistent⟩ := exact_of_readSummary hfit hexact hlen hsummary
  exact ⟨⟨hexact, hreported⟩, hconsistent⟩

/-! ### Scans -/

/-- A piece of a source has a known kind, and its place lies within the source. -/
theorem Token.exact_of_piece {l : Language} {source : String}
    (hlen : source.length < countRange) {x : Piece} (hx : x ∈ l.profile.pieces source) :
    x.token.Exact := by
  obtain ⟨before, after, hsplit⟩ := List.append_of_mem hx
  have hknown := Cursor.isKnown_cutLines l.profile {} _ x hx
  have hbefore := length_joined_lt l.wellMarked_profile.closersNonempty hsplit
  have hplace := standsBehind_piece hsplit
  constructor
  · exact Kind.ofName_name_of_isKnown hknown
  · exact Kind.visible_of_isKnown hknown
  -- Neither lines nor columns can be more than the characters before the piece.
  · intro n hn
    have hline : n = 1 + (Piece.joined before).count '\n' :=
      (Option.some.inj hn).symm.trans hplace.line
    have hcount : (Piece.joined before).count '\n' ≤ (Piece.joined before).length :=
      List.count_le_length
    omega
  · intro n hn
    have hcolumn : n = 1 + (Text.lastLine (Piece.joined before)).length :=
      (Option.some.inj hn).symm.trans hplace.column
    have hlast := Text.length_lastLine_le (Piece.joined before)
    omega

/-- A scan is an exact listing, if its source is no longer than a machine word can count. -/
theorem exact_scan (l : Language) {source : String} (hlen : source.length < countRange) :
    (l.profile.scan source).Exact := by
  have hpieces : (l.profile.pieces source).length ≤ source.length := by
    rw [← String.length_toList, ← joined_pieces l.profile source]
    apply length_le_joined
    intro x hx
    exact lexeme_ne_nil l.wellMarked_profile.closersNonempty hx
  have htokens : ∀ t ∈ (l.profile.scan source).tokens, t.Exact := by
    intro t ht
    rw [Profile.tokens_scan] at ht
    obtain ⟨x, hx, rfl⟩ := List.mem_map.mp ht
    exact Token.exact_of_piece hlen hx
  have hcount : (l.profile.scan source).tokens.length < countRange := by
    rw [Profile.tokens_scan, List.length_map]
    exact Nat.lt_of_le_of_lt hpieces hlen
  exact ⟨htokens, Summary.exact_ofTokens htokens hcount⟩

/-! ### What is handed out -/

/-- A listing that is handed out, and whether its summary agrees with its tokens: that of a source,
or that of a payload. No text has more characters, and no payload more tokens, than a machine word
can count. -/
inductive Produced : Listing → Bool → Prop
  | scanned (l : Language) (source : String) : source.length < countRange →
      Produced (l.profile.scan source) true
  | accepted {v : Value} {a : Accepted} : v.Fit → accept v = .ok a →
      a.listing.tokens.length < countRange → Produced a.listing a.consistent

/-- What the program produces is an exact listing, with the flag that it deserves. -/
theorem Produced.exact {r : Listing} {consistent : Bool} (h : Produced r consistent) :
    r.Exact ∧ consistent = decide (r.summary = Summary.ofTokens r.tokens) := by
  cases h with
  | scanned l source hlen => exact ⟨exact_scan l hlen, (decide_eq_true rfl).symm⟩
  | accepted hfit haccept hlen => exact exact_of_accept hfit haccept hlen

/-- Export, reload and renewed checking agree: from the document of a listing that is handed out the
listing is read back, and as a payload the document is accepted with the same listing and the same
verdict on its summary. -/
theorem reload_produced {r : Listing} {consistent : Bool} (h : Produced r consistent) :
    Listing.ofDocument r.document = .ok r ∧
    ∃ v, parse r.document = .ok v ∧ accept v = .ok ⟨r, consistent⟩ := by
  obtain ⟨hexact, rfl⟩ := h.exact
  exact ⟨Listing.ofDocument_document hexact, Listing.accept_document hexact⟩

/-- A payload that names a kind twice, with a lexeme that has to be escaped and only one half of a
place. -/
def twiceNamed : String :=
  "\x7b\"tokens\": [\x7b\"type\": \"Keyword\", \"value\": \"\\u0001\\\"é\"," ++
    " \"line\": null, \"position\": 7\x7d]," ++
    " \"summary\": \x7b\"keyword\": 1, \"Keyword\": 2, \"odd\": 0\x7d\x7d"

/-- The listing of a source, and that of a payload whose summary does not agree with its tokens. -/
theorem reload_produced_twiceNamed :
    (∃ v, parse (Language.python.profile.scan "'\t\"'\n").document = .ok v ∧
      accept v = .ok ⟨Language.python.profile.scan "'\t\"'\n", true⟩) ∧
    ∃ v a, parse twiceNamed = .ok v ∧ accept v = .ok a ∧
      a = ⟨⟨[⟨.keyword, "\x01\"é", none, some 7⟩], .ofPairs [("keyword", 3), ("odd", 0)]⟩, false⟩ ∧
      Listing.ofDocument a.listing.document = .ok a.listing ∧
      ∃ w, parse a.listing.document = .ok w ∧ accept w = .ok a := by
  have hscan : Produced (Language.python.profile.scan "'\t\"'\n") true :=
    .scanned .python _ (by decide)
  have haccept : (parse twiceNamed).toOption.any (fun v => (accept v).toOption.any fun a =>
      a = ⟨⟨[⟨.keyword, "\x01\"é", none, some 7⟩], .ofPairs [("keyword", 3), ("odd", 0)]⟩,
        false⟩) = true := by
    decide +kernel
  obtain ⟨v, hv, haccept⟩ := exists_ok_of_any haccept
  obtain ⟨a, ha, hsame⟩ := exists_ok_of_any haccept
  have hsame := of_decide_eq_true hsame
  have hproduced : Produced a.listing a.consistent :=
    .accepted (fit_of_parse hv) ha (by rw [hsame]; decide)
  exact ⟨(reload_produced hscan).2, v, a, hv, ha, hsame, reload_produced hproduced⟩

end PolyLex
