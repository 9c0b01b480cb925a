import PolyLex.Proofs.Remote.Acceptance

/-!
# What a reported summary comes to

A reported summary may name one kind in several spellings, and the counts of all of them belong
together: `reportedCount` adds them up. What is read keeps that number under the name of the kind,
and a name to which no spelling leads is not kept (`get?_readCounts`).

A sum that is no machine word is never kept. Reading breaks off at the addition that leads there, so
the payload is neither accepted nor refused (`readCounts_eq_fault`).

* `accept_counts` — a summary of machine words is accepted with the exact sums if all of these are
  machine words, and breaks off if one is not;
* `accept_overflow` — two spellings are enough for that.
-/

namespace PolyLex.Remote

open Json

/-- Is the kind named among the counts, in whatever spelling? -/
def IsReported (counts : List (String × Value)) (name : String) : Prop :=
  ∃ m ∈ counts, (Kind.ofName m.1).name = name

/-- A kind is reported by the first entry or by a later one. -/
theorem isReported_cons {m : String × Value} {counts : List (String × Value)} {name : String} :
    IsReported (m :: counts) name ↔ (Kind.ofName m.1).name = name ∨ IsReported counts name := by
  simp [IsReported]

/-- A kind that is not reported counts nothing. -/
theorem reportedCount_of_not_isReported {counts : List (String × Value)} {name : String}
    (h : ¬ IsReported counts name) : reportedCount name counts = 0 := by
  induction counts with
  | nil => rfl
  | cons m counts ih =>
    rw [isReported_cons, not_or] at h
    rw [reportedCount, if_neg h.1, ih h.2]

/-- The sums that are read are exact: each count is added to what the summary holds of its kind. A
kind that is not named keeps what it has. -/
theorem get?_readCounts {counts : List (String × Value)} {summary reported : Summary}
    (h : readCounts summary counts = .ok reported) (name : String) :
    (IsReported counts name →
      reported.get? name = some (summary.count name + reportedCount name counts)) ∧
    (¬ IsReported counts name → reported.get? name = summary.get? name) := by
  induction counts generalizing summary with
  | nil =>
    cases h
    refine ⟨?_, fun _ => rfl⟩
    rintro ⟨m, hm, -⟩
    cases hm
  | cons m counts ih =>
    obtain ⟨key, v⟩ := m
    cases hn : v.nat? with
    | none =>
      rw [readCounts, hn] at h
      cases h
    | some n =>
      rw [readCounts_cons hn] at h
      dsimp only at h
      split at h
      · obtain ⟨hnamed, hunnamed⟩ := ih h
        rw [count_insert_add summary key hn counts name] at hnamed
        rw [isReported_cons]
        by_cases hkey : (Kind.ofName key).name = name
        · -- the first count is added now, those of further spellings afterwards
          refine ⟨fun _ => ?_, fun hnot => absurd (.inl hkey) hnot⟩
          by_cases hmore : IsReported counts name
          · exact hnamed hmore
          · rw [hunnamed hmore, reportedCount, if_pos hkey, hn, Option.getD_some,
              reportedCount_of_not_isReported hmore, Nat.add_zero, ← hkey, Summary.insert,
              Summary.get?_update_self]
        · rw [Summary.insert, Summary.get?_update_of_ne _ _ hkey] at hunnamed
          exact ⟨fun hmore => hnamed (hmore.resolve_left hkey),
            fun hnot => hunnamed fun hmore => hnot (.inr hmore)⟩
      · cases h

/-- Counts that are machine words and do not add up make reading break off. -/
theorem readCounts_eq_fault {counts : List (String × Value)} (hfit : ∀ m ∈ counts, m.2.Fit)
    (hcounts : ∀ m ∈ counts, ∃ n : Nat, n < countRange ∧ m.2 = .int n) {name : String}
    (hsum : countRange ≤ reportedCount name counts) :
    readCounts ∅ counts = .error (.fault .overflow) := by
  cases h : readCounts ∅ counts with
  | ok reported =>
    obtain ⟨-, hsums⟩ := (exists_readCounts_empty_iff hfit).mp ⟨reported, h⟩
    exact absurd hsum (Nat.not_le.mpr (hsums name))
  | error stop =>
    obtain ⟨before, key, w, after, -, rfl, -, hstop⟩ := exists_of_readCounts_eq_error h
    rcases hstop with ⟨hnone, -⟩ | ⟨-, hfault, -⟩
    · -- no count is refused, for all of them are machine words
      obtain ⟨n, -, rfl⟩ := hcounts (key, w) (by simp)
      cases hnone
    · rw [hfault]

/-- A summary of machine words comes to one of two ends. If its counts add up to machine words, the
payload is accepted, with the exact sums under the names of kinds that it reports and no other
names. If they do not, reading breaks off: no sum is kept that is not exact. -/
theorem accept_counts {members counts : List (String × Value)} {items : List Value}
    {tokens : List Token} (hfit : (Value.obj members).Fit)
    (hitems : member? members "tokens" = some (.arr items))
    (htokens : List.Forall₂ IsToken items tokens)
    (hsummary : member? members "summary" = some (.obj counts))
    (hcounts : ∀ m ∈ counts, ∃ n : Nat, n < countRange ∧ m.2 = .int n) :
    ((∀ name, reportedCount name counts < countRange) →
      ∃ a, accept (.obj members) = .ok a ∧ a.listing.tokens = tokens ∧ ∀ name,
        (IsReported counts name →
          a.listing.summary.get? name = some (reportedCount name counts)) ∧
        (¬ IsReported counts name → a.listing.summary.get? name = none)) ∧
    ∀ name, countRange ≤ reportedCount name counts →
      accept (.obj members) = .error (.fault .overflow) := by
  have hfitcounts := fit_of_counts hfit hsummary
  have htokens := (readTokens_eq_ok_iff (fit_of_items hfit hitems) 0).mpr htokens
  constructor
  · intro hsums
    obtain ⟨reported, hreported⟩ := (exists_readCounts_empty_iff hfitcounts).mpr ⟨hcounts, hsums⟩
    have hread : readSummary members tokens =
        .ok (reported, reported = Summary.ofTokens tokens) := by
      simp only [readSummary, hsummary, hreported]
      rfl
    refine ⟨_, accept_eq_ok_iff.mpr
      ⟨members, items, tokens, reported, _, rfl, hitems, htokens, hread, rfl⟩, rfl, fun name => ?_⟩
    -- The reading starts from no counts, so nothing is added to the sums.
    have hzero : (∅ : Summary).count name = 0 := rfl
    obtain ⟨hnamed, hunnamed⟩ := get?_readCounts hreported name
    rw [hzero, Nat.zero_add] at hnamed
    exact ⟨hnamed, hunnamed⟩
  · intro name hsum
    simp only [accept, Value.members?, hitems, htokens, readSummary, hsummary,
      readCounts_eq_fault hfitcounts hcounts hsum]
    rfl

/-- A payload without tokens that counts one kind in two spellings. -/
def spelledTwice (first second : Nat) : List (String × Value) :=
  [("summary", .obj [("KEYWORD", .nat first), (" keyword ", .nat second)]), ("tokens", .arr [])]

/-- Both counts of the kind are kept, added up under its name. -/
theorem accept_spelledTwice : ∃ a, accept (.obj (spelledTwice 2 3)) = .ok a ∧
    a.listing.summary.get? "keyword" = some 5 := by
  have hcounts : ∀ m ∈ [("KEYWORD", Value.nat 2), (" keyword ", .nat 3)],
      ∃ n : Nat, n < countRange ∧ m.2 = .int n := by
    rintro m hm
    simp only [List.mem_cons, List.not_mem_nil, or_false] at hm
    rcases hm with rfl | rfl
    · exact ⟨2, by decide, rfl⟩
    · exact ⟨3, by decide, rfl⟩
  have hfit : (Value.obj (spelledTwice 2 3)).Fit := by
    refine .obj fun m hm => ?_
    simp only [spelledTwice, List.mem_cons, List.not_mem_nil, or_false] at hm
    rcases hm with rfl | rfl
    · refine .obj fun m hm => ?_
      obtain ⟨n, hn, hm⟩ := hcounts m hm
      have hhigh : (n : Int) < 0x10000000000000000 := Int.ofNat_lt.mpr hn
      exact hm ▸ .int (by omega) hhigh
    · exact .arr (by simp)
  have hitems : member? (spelledTwice 2 3) "tokens" = some (.arr []) := rfl
  -- whatever the kind, at most these two counts belong to it
  have hsums : ∀ name, reportedCount name [("KEYWORD", Value.nat 2), (" keyword ", .nat 3)] <
      countRange := by
    intro name
    have htwo : (Value.nat 2).nat? = some 2 := rfl
    have hthree : (Value.nat 3).nat? = some 3 := rfl
    simp only [reportedCount, htwo, hthree, Option.getD_some]
    split <;> split <;> decide
  obtain ⟨a, ha, -, hget⟩ := (accept_counts hfit hitems .nil rfl hcounts).1 hsums
  have hreported : IsReported [("KEYWORD", Value.nat 2), (" keyword ", .nat 3)] "keyword" :=
    ⟨_, List.mem_cons_self, by decide +kernel⟩
  have hsum : reportedCount "keyword" [("KEYWORD", Value.nat 2), (" keyword ", .nat 3)] = 5 := by
    decide +kernel
  have hkept := (hget "keyword").1 hreported
  rw [hsum] at hkept
  exact ⟨a, ha, hkept⟩

/-- Each count is a machine word, their sum is none, and reading breaks off. -/
theorem accept_overflow :
    accept (.obj (spelledTwice 18446744073709551615 1)) = .error (.fault .overflow) ∧
    reportedCount "keyword" [("KEYWORD", .nat 18446744073709551615), (" keyword ", .nat 1)] =
      18446744073709551616 := by
  constructor <;> decide +kernel

end PolyLex.Remote
