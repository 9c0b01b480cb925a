import PolyLex.Listing.Document
import PolyLex.Proofs.Json.Printing
import PolyLex.Proofs.Remote.Acceptance
import PolyLex.Proofs.Token.Summary

/-!
# Listings and their documents

The document of a listing has two readers: `Listing.ofDocument` takes the record out of it, and
`Remote.accept` checks it as it checks any payload. Both give the listing back if the document can
hold it (`Listing.Exact`): kinds have the name they are read by, places are positive, and all
numbers are machine words.

* `Listing.ofDocument_document` — the record;
* `Listing.accept_document` — the payload, and whether its summary agrees with its tokens.
-/

namespace PolyLex

open Json Remote

/-- A document can hold the token. -/
structure Token.Exact (t : Token) : Prop where
  kind : Kind.ofName t.kind.name = t.kind
  visible : ∃ c ∈ t.kind.name.toList, Text.isBlank c = false
  line : ∀ n ∈ t.line, 0 < n ∧ n < countRange
  column : ∀ n ∈ t.column, 0 < n ∧ n < countRange

/-- A document can hold the summary: its names are settled, its counts are machine words. -/
def Summary.Exact (s : Summary) : Prop :=
  ∀ name n, s.get? name = some n → (Kind.ofName name).name = name ∧ n < countRange

/-- A document can hold the listing. -/
structure Listing.Exact (r : Listing) : Prop where
  tokens : ∀ t ∈ r.tokens, t.Exact
  summary : r.summary.Exact

/-! ### The document is plain -/

/-- A count that fits a machine word is plain. -/
theorem plain_nat {d n : Nat} (h : n < countRange) : (Value.nat n).Plain d := by
  have hhigh : (n : Int) < 0x10000000000000000 := Int.ofNat_lt.mpr h
  exact .int (by omega) hhigh

/-- A token whose places fit machine words is written as a plain value. -/
theorem Token.Exact.plain {t : Token} (h : t.Exact) {d : Nat} : t.toJson.Plain (d + 1) := by
  refine .obj fun m hm => ?_
  simp only [List.cons_append, List.nil_append, List.mem_cons, List.mem_append, Option.mem_toList,
    Option.map_eq_some_iff] at hm
  rcases hm with rfl | rfl | ⟨n, hn, rfl⟩ | ⟨n, hn, rfl⟩
  · exact .str _
  · exact .str _
  · exact plain_nat (h.line n hn).2
  · exact plain_nat (h.column n hn).2

theorem Summary.Exact.plain {s : Summary} (h : s.Exact) {d : Nat} : s.toJson.Plain (d + 1) := by
  refine .obj fun m hm => ?_
  obtain ⟨e, he, rfl⟩ := List.mem_map.mp hm
  exact plain_nat (h e.1 e.2 (get?_of_mem he)).2

theorem Listing.Exact.plain {r : Listing} (h : r.Exact) : r.toJson.Plain 3 := by
  have htokens : ∀ v ∈ r.tokens.map Token.toJson, v.Plain 1 := by
    intro v hv
    obtain ⟨t, ht, rfl⟩ := List.mem_map.mp hv
    exact (h.tokens t ht).plain
  refine .obj fun m hm => ?_
  simp only [List.mem_cons, List.not_mem_nil, or_false] at hm
  rcases hm with rfl | rfl
  · exact .arr htokens
  · exact h.summary.plain

/-! ### The record -/

/-- A token is read from its value, with its kind by name. -/
theorem Token.ofJson?_toJson (t : Token) :
    ofJson? t.toJson = some { t with kind := Kind.ofName t.kind.name } := by
  obtain ⟨kind, lexeme, line, column⟩ := t
  cases line with
  | none => cases column <;> rfl
  | some n => cases column <;> rfl

theorem Summary.ofJson?_toJson (s : Summary) : ofJson? s.toJson = some s := by
  have hpairs : (s.entries.map fun e => (e.1, Value.nat e.2)).mapM
      (fun m => m.2.nat?.map fun n => (m.1, n)) = some s.entries :=
    mapM_map_eq_some fun _ _ => rfl
  have hsame : ofPairs s.entries = s := ext (Keyed.ofList_of_ordered s.ordered)
  simp only [ofJson?, toJson, Value.members?, Option.bind_eq_bind, Option.bind_some, hpairs, hsame,
    Option.pure_def]

theorem Listing.ofJson?_toJson {r : Listing} (h : r.Exact) : ofJson? r.toJson = some r := by
  have htokens : (r.tokens.map Token.toJson).mapM Token.ofJson? = some r.tokens := by
    apply mapM_map_eq_some
    intro t ht
    rw [Token.ofJson?_toJson, (h.tokens t ht).kind]
  have hsummary := Summary.ofJson?_toJson r.summary
  show (do
    let tokens ← (r.tokens.map Token.toJson).mapM Token.ofJson?
    let summary ← Summary.ofJson? r.summary.toJson
    return (⟨tokens, summary⟩ : Listing)) = some r
  rw [htokens, hsummary]
  rfl

/-- The document is long enough for its own nesting. -/
theorem Listing.length_document (r : Listing) : 3 ≤ r.document.length := by
  have hlen : r.document.length = (r.toJson.prettyAt 0).length := String.length_ofList
  rw [hlen]
  simp only [toJson, Value.prettyAt, Value.newLine, List.length_append, List.length_cons]
  omega

/-- A listing is read back from its document. -/
theorem Listing.ofDocument_document {r : Listing} (h : r.Exact) :
    ofDocument r.document = .ok r := by
  have hread : readRecord r.document = .ok r.toJson :=
    readDocument_pretty h.plain false (length_document r)
  rw [ofDocument, hread]
  simp only [ofJson?_toJson h]

/-! ### The payload -/

/-- What a settled object holds, if its names are distinct. -/
theorem member?_settled {members : List (String × Value)} (h : (members.map Prod.fst).Nodup)
    (key : String) : member? (Keyed.ofList (Value.settledMembers members)) key =
      (Keyed.find? key members).map Value.settled := by
  have hkeys : ((members.map fun m => (m.1, m.2.settled)).map Prod.fst).Nodup := by
    rw [List.map_map]
    exact h
  rw [member?, Value.settledMembers_eq, Keyed.find?_ofList hkeys, Keyed.find?_map]

/-- A positive count is a position, and so is none. -/
theorem isPosition_nat {place : Option Nat} (h : ∀ n ∈ place, 0 < n ∧ n < countRange) :
    IsPosition ((place.map Value.nat).map Value.settled) place := by
  cases place with
  | none => exact .absent
  | some n => exact .given (h n rfl).1 (h n rfl).2

/-- The members of the object that a token is written as. -/
def Token.members (t : Token) : List (String × Value) :=
  [("type", .str t.kind.name), ("value", .str t.lexeme)] ++
    (t.line.map fun n => ("line", Value.nat n)).toList ++
    (t.column.map fun n => ("position", Value.nat n)).toList

theorem Token.nodup_members (t : Token) : (t.members.map Prod.fst).Nodup := by
  unfold members
  cases t.line with
  | none => cases t.column <;> simp
  | some n => cases t.column <;> simp

theorem Token.find?_line (t : Token) : Keyed.find? "line" t.members = t.line.map Value.nat := by
  unfold members
  cases t.line with
  | none => cases t.column <;> rfl
  | some n => cases t.column <;> rfl

theorem Token.find?_position (t : Token) :
    Keyed.find? "position" t.members = t.column.map Value.nat := by
  unfold members
  cases t.line with
  | none => cases t.column <;> rfl
  | some n => cases t.column <;> rfl

/-- What is written of an exact token is valid for that token. -/
theorem Token.Exact.isToken {t : Token} (h : t.Exact) : IsToken t.toJson.settled t := by
  have hmember := member?_settled t.nodup_members
  have htoken : IsToken t.toJson.settled ⟨Kind.ofName t.kind.name, t.lexeme, t.line, t.column⟩ := by
    refine .intro ?_ h.visible ?_ ?_ ?_
    · exact hmember "type"
    · exact hmember "value"
    · have hline := hmember "line"
      rw [t.find?_line] at hline
      exact hline ▸ isPosition_nat h.line
    · have hcolumn := hmember "position"
      rw [t.find?_position] at hcolumn
      exact hcolumn ▸ isPosition_nat h.column
  rwa [h.kind] at htoken

/-- The summary is in order, so that there is nothing to settle. -/
theorem Summary.settled_toJson (s : Summary) : s.toJson.settled = s.toJson := by
  have hmap : Value.settledMembers (s.entries.map fun e => (e.1, Value.nat e.2)) =
      s.entries.map fun e => (e.1, Value.nat e.2) := by
    rw [Value.settledMembers_eq, List.map_map]
    rfl
  have hordered : Keyed.Ordered (s.entries.map fun e => (e.1, Value.nat e.2)) :=
    List.pairwise_map.mpr s.ordered
  rw [toJson, Value.settled, hmap, Keyed.ofList_of_ordered hordered]

/-- Counts under names that are settled and new to a summary are added to it as they are. -/
theorem readCounts_nat {entries : List (String × Nat)} (hkeys : (entries.map Prod.fst).Nodup)
    (hexact : ∀ e ∈ entries, (Kind.ofName e.1).name = e.1 ∧ e.2 < countRange) :
    ∀ s : Summary, (∀ e ∈ entries, s.get? e.1 = none) →
      ∃ reported, readCounts s (entries.map fun e => (e.1, Value.nat e.2)) = .ok reported ∧
        ∀ name, reported.get? name = (Keyed.find? name entries).or (s.get? name) := by
  induction entries with
  | nil => exact fun s _ => ⟨s, rfl, fun name => rfl⟩
  | cons e entries ih =>
    intro s hnew
    obtain ⟨name, n⟩ := e
    rw [List.map_cons, List.nodup_cons] at hkeys
    obtain ⟨⟨hname, hn⟩, hexact⟩ := List.forall_mem_cons.mp hexact
    obtain ⟨hfresh, hnew⟩ := List.forall_mem_cons.mp hnew
    have hfresh : s.get? name = none := hfresh
    have hne : ∀ e ∈ entries, name ≠ e.1 := by
      rintro e he rfl
      exact hkeys.1 (List.mem_map.mpr ⟨e, he, rfl⟩)
    obtain ⟨reported, hreported, hget⟩ := ih hkeys.2 hexact (s.insert name n) (by
      intro e he
      rw [Summary.insert, Summary.get?_update_of_ne _ _ (hne e he)]
      exact hnew e he)
    refine ⟨reported, ?_, ?_⟩
    · -- there is nothing to add the count to, so it cannot become too large
      have hzero : s.count name = 0 := by rw [Summary.count, hfresh, Option.getD_none]
      rw [List.map_cons, readCounts_cons rfl]
      dsimp only
      rw [hname, hzero, Nat.zero_add, if_pos hn]
      exact hreported
    · intro other
      rw [hget, Keyed.find?, Summary.insert]
      by_cases hother : name = other
      · subst hother
        rw [Keyed.find?_eq_none_of_not_mem hkeys.1, Summary.get?_update_self, if_pos rfl]
        rfl
      · rw [Summary.get?_update_of_ne _ _ hother, if_neg hother]

/-- The counts of a written summary are read as that summary. -/
theorem Summary.Exact.readCounts {s : Summary} (h : s.Exact) :
    Remote.readCounts ∅ (s.entries.map fun e => (e.1, Value.nat e.2)) = .ok s := by
  have hexact : ∀ e ∈ s.entries, (Kind.ofName e.1).name = e.1 ∧ e.2 < countRange := by
    intro e he
    exact h e.1 e.2 (get?_of_mem he)
  obtain ⟨reported, hreported, hget⟩ := readCounts_nat s.ordered.nodup_keys hexact ∅ fun _ _ => rfl
  have hsame : reported = s := by
    apply ext_get?
    intro name
    rw [hget]
    exact Option.or_none
  rw [hreported, hsame]

/-- What is written of an exact listing is accepted, with the flag that the listing deserves. -/
theorem Listing.Exact.accept {r : Listing} (h : r.Exact) :
    Remote.accept r.toJson.settled = .ok ⟨r, r.summary = Summary.ofTokens r.tokens⟩ := by
  have hkeys : ([("tokens", Value.arr (r.tokens.map Token.toJson)),
      ("summary", r.summary.toJson)].map Prod.fst).Nodup := by simp
  have hmember := member?_settled hkeys
  have hitems : List.Forall₂ IsToken ((r.tokens.map Token.toJson).map Value.settled) r.tokens := by
    rw [List.map_map, List.forall₂_map_left_iff, List.forall₂_same]
    intro t ht
    exact (h.tokens t ht).isToken
  -- What was written from an exact listing fits, also once names are settled.
  have hfit : ∀ v ∈ (r.tokens.map Token.toJson).map Value.settled, v.Fit := by
    intro v hv
    rw [List.map_map] at hv
    obtain ⟨t, ht, rfl⟩ := List.mem_map.mp hv
    exact ((h.tokens t ht).plain (d := 0)).fit.settled
  refine accept_eq_ok_iff.mpr ⟨_, _, r.tokens, r.summary, _, rfl, ?_,
    (readTokens_eq_ok_iff hfit 0).mpr hitems, ?_, rfl⟩
  · rw [hmember, ← Value.settledItems_eq]
    rfl
  · have hsummary := (hmember "summary").trans (congrArg some r.summary.settled_toJson)
    rw [readSummary, hsummary]
    show (do
      let reported ← Remote.readCounts ∅
        (r.summary.entries.map fun e : String × Nat => (e.1, Value.nat e.2))
      return (reported, decide (reported = Summary.ofTokens r.tokens))) = _
    rw [h.summary.readCounts]
    rfl

/-- A listing that is read from its document as a payload is accepted, and its summary agrees with
its tokens if it did. -/
theorem Listing.accept_document {r : Listing} (h : r.Exact) :
    ∃ v, parse r.document = .ok v ∧
      Remote.accept v = .ok ⟨r, r.summary = Summary.ofTokens r.tokens⟩ :=
  ⟨_, parse_pretty h.plain (by decide), h.accept⟩

end PolyLex
