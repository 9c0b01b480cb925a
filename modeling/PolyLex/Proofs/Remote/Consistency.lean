import Mathlib.Data.List.Perm.Basic
import PolyLex.Proofs.Remote.Counts
import PolyLex.Proofs.Token.Spelling
import PolyLex.Proofs.Token.Summary

/-!
# When a summary agrees with the tokens

The summary of an accepted payload is either drawn up from the tokens, and then agrees with them, or
taken as reported. That the payload was accepted says that its counts add up, so what is kept are
the exact sums (`holds_of_readCounts`). Whether a reported summary agrees is decided name by name
(`Summary.Holds.eq_iff`): the names it reports have to be those of the kinds that occur, and each
sum the number of their tokens. A kind that is reported with zero tokens is a disagreement.

Neither the order of the tokens nor the spelling of known kinds plays a part. `Respelled` says what
may change from one payload to another, and `accept_consistent` that summary and verdict stay.
-/

namespace PolyLex

/-- The second list is the first in another order, with each item changed as `R` says. -/
def Rearranged {α β : Type} (R : α → β → Prop) (xs : List α) (ys : List β) : Prop :=
  ∃ zs, xs.Perm zs ∧ List.Forall₂ R zs ys

/-- The summary holds the names that satisfy `p`, each with its number. -/
def Summary.Holds (s : Summary) (p : String → Prop) (number : String → Nat) : Prop :=
  ∀ name n, s.get? name = some n ↔ p name ∧ n = number name

/-- Equality of summaries, name by name. -/
theorem Summary.Holds.eq_iff {s t : Summary} {p q : String → Prop} {m n : String → Nat}
    (hs : s.Holds p m) (ht : t.Holds q n) :
    s = t ↔ ∀ name, (p name ↔ q name) ∧ (p name → m name = n name) := by
  constructor
  · rintro rfl name
    have hsame : ∀ k, (p name ∧ k = m name) ↔ (q name ∧ k = n name) := fun k =>
      (hs name k).symm.trans (ht name k)
    exact ⟨⟨fun hp => ((hsame _).mp ⟨hp, rfl⟩).1, fun hq => ((hsame _).mpr ⟨hq, rfl⟩).1⟩,
      fun hp => ((hsame _).mp ⟨hp, rfl⟩).2⟩
  · intro hsame
    refine Summary.ext_get? fun name => Option.ext fun k => ?_
    obtain ⟨hnames, hnumbers⟩ := hsame name
    rw [hs, ht, ← hnames]
    exact and_congr_right fun hp => by rw [hnumbers hp]

/-- A summary is given by which kinds it has and with what numbers. -/
theorem Summary.Holds.unique {s t : Summary} {p : String → Prop} {number : String → Nat}
    (hs : s.Holds p number) (ht : t.Holds p number) : s = t :=
  (hs.eq_iff ht).mpr fun _ => ⟨Iff.rfl, fun _ => rfl⟩

namespace Remote

open Json

/-- The kind occurs among the tokens. -/
def Occurs (tokens : List Token) (name : String) : Prop := ∃ t ∈ tokens, t.kind.name = name

/-- The number of tokens of a kind. -/
def occurrences (tokens : List Token) (name : String) : Nat :=
  tokens.countP (·.kind.name = name)

/-- A recomputed summary has the kinds that occur, with how often they do. -/
theorem holds_ofTokens (tokens : List Token) :
    (Summary.ofTokens tokens).Holds (Occurs tokens) (occurrences tokens) :=
  fun _ _ => Summary.get?_ofTokens_eq_some_iff

/-! ### What is read of a summary -/

variable {members members' counts counts' : List (String × Value)} {tokens : List Token}
  {reported reported' : Summary}

/-- A summary that is read holds what is reported. -/
theorem holds_of_readCounts (h : readCounts ∅ counts = .ok reported) :
    reported.Holds (IsReported counts) (reportedCount · counts) := by
  intro name n
  have hnone : (∅ : Summary).get? name = none := rfl
  have hzero : (∅ : Summary).count name = 0 := rfl
  obtain ⟨hnamed, hunnamed⟩ := get?_readCounts h name
  rw [hnone] at hunnamed
  rw [hzero, Nat.zero_add] at hnamed
  by_cases hname : IsReported counts name
  · rw [hnamed hname, Option.some.injEq, and_iff_right hname]
    exact eq_comm
  · rw [hunnamed hname]
    exact ⟨nofun, fun h => absurd h.1 hname⟩

/-- A summary is recomputed where none is given, and otherwise the one that is reported. -/
theorem readSummary_eq_ok_iff {summary : Summary} {consistent : Bool} :
    readSummary members tokens = .ok (summary, consistent) ↔
      ((member? members "summary" = none ∨ member? members "summary" = some .null) ∧
        summary = Summary.ofTokens tokens ∧ consistent = true) ∨
      ∃ counts, member? members "summary" = some (.obj counts) ∧
        readCounts ∅ counts = .ok summary ∧
        consistent = decide (summary = Summary.ofTokens tokens) := by
  unfold readSummary
  dsimp only
  split
  · next h => simp [h, eq_comm]
  · next h => simp [h, eq_comm]
  · next counts h =>
    simp only [h, bind_eq_ok_iff, pure, Except.pure, Except.ok.injEq, Prod.mk.injEq]
    constructor
    · rintro ⟨_, hreported, rfl, rfl⟩
      exact .inr ⟨counts, rfl, hreported, rfl⟩
    · rintro (⟨habsent, -⟩ | ⟨_, ⟨⟩, hreported, rfl⟩)
      · simp at habsent
      · exact ⟨summary, hreported, rfl, rfl⟩
  · next v hnull hobj h =>
    rw [h]
    constructor
    · rintro ⟨⟩
    · rintro (⟨habsent, -⟩ | ⟨counts, hcounts, -⟩)
      · simp_all
      · exact absurd (Option.some.inj hcounts) (hobj counts)

/-! ### Other spellings and another order -/

/-- The item of a token with its kind in another spelling. -/
inductive RespelledItem : Value → Value → Prop
  | intro {members members' : List (String × Value)} {name name' : String} :
      member? members "type" = some (.str name) → member? members' "type" = some (.str name') →
      Kind.Respelled name name' →
      (∀ key ∈ ["value", "line", "position"], member? members' key = member? members key) →
      RespelledItem (.obj members) (.obj members')

/-- A count under the name of its kind in another spelling. -/
def RespelledCount (m m' : String × Value) : Prop := Kind.Respelled m.1 m'.1 ∧ m'.2 = m.2

/-- A summary with its names in other spellings, and so perhaps in another order. -/
inductive RespelledSummary : Option Value → Option Value → Prop
  | same {v : Option Value} : RespelledSummary v v
  | counts {counts counts' : List (String × Value)} : Rearranged RespelledCount counts counts' →
      RespelledSummary (some (.obj counts)) (some (.obj counts'))

/-- A payload with its tokens in another order and known kinds in other spellings. -/
inductive Respelled (members members' : List (String × Value)) : Prop
  | intro {items items' : List Value} :
      member? members "tokens" = some (.arr items) →
      member? members' "tokens" = some (.arr items') → Rearranged RespelledItem items items' →
      RespelledSummary (member? members "summary") (member? members' "summary") →
      Respelled members members'

/-- A token is valid in either spelling of its kind. -/
theorem RespelledItem.isToken {v v' : Value} (h : RespelledItem v v') {t : Token}
    (ht : IsToken v t) : IsToken v' t := by
  cases h with
  | @intro _ _ name name' htype htype' hname hsame =>
    simp only [List.forall_mem_cons] at hsame
    obtain ⟨hvalue, hline, hcolumn, -⟩ := hsame
    cases ht with
    | @intro _ name₀ lexeme line column htype₀ hvisible hlexeme hlinePlace hcolumnPlace =>
      rw [htype] at htype₀
      cases htype₀
      -- A spelling of a known kind has the visible characters of its name.
      have hvisible' : ∃ c ∈ name'.toList, Text.isBlank c = false := by
        cases hname with
        | same => exact hvisible
        | alike hknown halike =>
          refine Kind.visible_of_isKnown_ofName ?_
          rwa [Kind.Respelled.ofName_eq (.alike hknown halike)]
      rw [← hname.ofName_eq]
      exact .intro htype' hvisible' (hvalue.trans hlexeme) (hline ▸ hlinePlace)
        (hcolumn ▸ hcolumnPlace)

/-- Items in another order and spelling are the same tokens in another order. -/
theorem exists_tokens_of_rearranged {items items' : List Value}
    (h : Rearranged RespelledItem items items') (htokens : List.Forall₂ IsToken items tokens) :
    ∃ tokens', tokens.Perm tokens' ∧ List.Forall₂ IsToken items' tokens' := by
  obtain ⟨moved, hperm, hitems⟩ := h
  obtain ⟨tokens', hmoved, htokens⟩ := List.perm_comp_forall₂ hperm.symm htokens
  refine ⟨tokens', htokens.symm, ?_⟩
  clear hperm htokens
  induction hitems generalizing tokens' with
  | nil =>
    cases hmoved
    exact .nil
  | cons hitem _ ih =>
    cases hmoved with
    | cons ht hmoved => exact .cons (hitem.isToken ht) (ih _ hmoved)

/-- Which kinds are reported does not depend on the order. -/
theorem isReported_perm (h : counts.Perm counts') (name : String) :
    IsReported counts name ↔ IsReported counts' name :=
  exists_congr fun _ => and_congr_left' h.mem_iff

/-- How many are reported does not depend on the order, since addition does not. -/
theorem reportedCount_perm (h : counts.Perm counts') (name : String) :
    reportedCount name counts = reportedCount name counts' := by
  induction h with
  | nil => rfl
  | cons m _ ih => rw [reportedCount, reportedCount, ih]
  | swap m m' counts =>
    simp only [reportedCount]
    exact Nat.add_left_comm _ _ _
  | trans _ _ ih ih' => exact ih.trans ih'

/-- Which kinds are reported does not depend on their spelling. -/
theorem isReported_respelled (h : List.Forall₂ RespelledCount counts counts') (name : String) :
    IsReported counts name ↔ IsReported counts' name := by
  induction h with
  | nil => rfl
  | cons hm _ ih => rw [isReported_cons, isReported_cons, hm.1.ofName_eq, ih]

/-- How many are reported does not depend on the spelling of kinds. -/
theorem reportedCount_respelled (h : List.Forall₂ RespelledCount counts counts') (name : String) :
    reportedCount name counts = reportedCount name counts' := by
  induction h with
  | nil => rfl
  | cons hm _ ih => rw [reportedCount, reportedCount, hm.1.ofName_eq, hm.2, ih]

/-- The counts are the same numbers in either spelling. -/
theorem forall_isCount_respelled (h : List.Forall₂ RespelledCount counts counts')
    (hcounts : ∀ m ∈ counts, ∃ n : Nat, n < countRange ∧ m.2 = .int n) :
    ∀ m ∈ counts', ∃ n : Nat, n < countRange ∧ m.2 = .int n := by
  induction h with
  | nil => exact hcounts
  | cons hm _ ih =>
    obtain ⟨hfirst, hrest⟩ := List.forall_mem_cons.mp hcounts
    exact List.forall_mem_cons.mpr ⟨hm.2 ▸ hfirst, ih hrest⟩

/-- Counts in another order and under other spellings come to the same summary. -/
theorem readCounts_rearranged (hfit : ∀ m ∈ counts, m.2.Fit) (hfit' : ∀ m ∈ counts', m.2.Fit)
    (h : Rearranged RespelledCount counts counts') (hreported : readCounts ∅ counts = .ok reported) :
    readCounts ∅ counts' = .ok reported := by
  obtain ⟨moved, hperm, hrespelled⟩ := h
  obtain ⟨hcounts, hsums⟩ := (exists_readCounts_empty_iff hfit).mp ⟨reported, hreported⟩
  have hsame : ∀ name, reportedCount name counts = reportedCount name counts' := fun name => by
    rw [reportedCount_perm hperm, reportedCount_respelled hrespelled]
  have hcounts' := forall_isCount_respelled hrespelled fun m hm => hcounts m (hperm.mem_iff.mpr hm)
  obtain ⟨reported', hreported'⟩ := (exists_readCounts_empty_iff hfit').mpr
    ⟨hcounts', fun name => hsame name ▸ hsums name⟩
  have heq : reported = reported' :=
    ((holds_of_readCounts hreported).eq_iff (holds_of_readCounts hreported')).mpr fun name =>
      ⟨(isReported_perm hperm name).trans (isReported_respelled hrespelled name),
        fun _ => hsame name⟩
  rw [heq, hreported']

/-- A summary in another order and spelling is read as the same. -/
theorem readSummary_respelled (hfit : (Value.obj members).Fit) (hfit' : (Value.obj members').Fit)
    (h : RespelledSummary (member? members "summary") (member? members' "summary"))
    {tokens' : List Token} (hperm : tokens.Perm tokens') {summary : Summary} {consistent : Bool}
    (hread : readSummary members tokens = .ok (summary, consistent)) :
    readSummary members' tokens' = .ok (summary, consistent) := by
  rw [readSummary_eq_ok_iff] at hread ⊢
  rw [← Summary.ofTokens_perm hperm]
  generalize hv : member? members "summary" = v at h hread
  generalize hv' : member? members' "summary" = v' at h ⊢
  cases h with
  | same => exact hread
  | counts hrearranged =>
    rcases hread with ⟨habsent | hnull, -⟩ | ⟨counts, ⟨⟩, hreported, hconsistent⟩
    · cases habsent
    · cases hnull
    · exact .inr ⟨_, rfl, readCounts_rearranged (fit_of_counts hfit hv) (fit_of_counts hfit' hv')
        hrearranged hreported, hconsistent⟩

/-- A payload with its tokens in another order and known kinds in other spellings is accepted if the
payload is, with the same tokens in that order, the same summary and the same verdict on it. -/
theorem accept_respelled (hfit : (Value.obj members).Fit) (hfit' : (Value.obj members').Fit)
    (h : Respelled members members') {a : Accepted} (ha : accept (.obj members) = .ok a) :
    ∃ a', accept (.obj members') = .ok a' ∧ a.listing.tokens.Perm a'.listing.tokens ∧
      a'.listing.summary = a.listing.summary ∧ a'.consistent = a.consistent := by
  obtain ⟨_, items, tokens, summary, consistent, ⟨⟩, hitems, htokens, hsummary, rfl⟩ :=
    accept_eq_ok_iff.mp ha
  cases h with
  | @intro items₀ items' hitems₀ hitems' hrearranged hrespelled =>
    rw [hitems] at hitems₀
    cases hitems₀
    obtain ⟨tokens', hperm, htokens'⟩ :=
      exists_tokens_of_rearranged hrearranged
        ((readTokens_eq_ok_iff (fit_of_items hfit hitems) 0).mp htokens)
    exact ⟨_, accept_eq_ok_iff.mpr ⟨members', items', tokens', summary, consistent, rfl, hitems',
      (readTokens_eq_ok_iff (fit_of_items hfit' hitems') 0).mpr htokens',
      readSummary_respelled hfit hfit' hrespelled hperm hsummary, rfl⟩, hperm, rfl, rfl⟩

/-- The summary of an accepted payload that reports none, and the verdict on it, are those of its
tokens. A summary that is reported is kept, whatever the tokens are, and agrees exactly if it holds
the kinds that occur, each with the number of its tokens. Neither summary nor verdict depends on the
order of the tokens or on the spelling of known kinds. -/
theorem accept_consistent {a : Accepted} (hfit : (Value.obj members).Fit)
    (ha : accept (.obj members) = .ok a) :
    ((member? members "summary" = none ∨ member? members "summary" = some .null) ∧
        a.listing.summary.Holds (Occurs a.listing.tokens) (occurrences a.listing.tokens) ∧
        a.consistent = true ∨
      ∃ counts, member? members "summary" = some (.obj counts) ∧
        a.listing.summary.Holds (IsReported counts) (reportedCount · counts) ∧
        (a.consistent = true ↔
          a.listing.summary.Holds (Occurs a.listing.tokens) (occurrences a.listing.tokens))) ∧
    ∀ members', (Value.obj members').Fit → Respelled members members' →
      ∃ a', accept (.obj members') = .ok a' ∧
        a'.listing.summary = a.listing.summary ∧ a'.consistent = a.consistent := by
  refine ⟨?_, fun members' hfit' hrespelled => ?_⟩
  · obtain ⟨_, items, tokens, summary, consistent, ⟨⟩, -, -, hsummary, rfl⟩ :=
      accept_eq_ok_iff.mp ha
    have hrecount := holds_ofTokens tokens
    rcases readSummary_eq_ok_iff.mp hsummary with
      ⟨habsent, rfl, rfl⟩ | ⟨counts, hcounts, hreported, rfl⟩
    · exact .inl ⟨habsent, hrecount, rfl⟩
    · refine .inr ⟨counts, hcounts, holds_of_readCounts hreported, ?_⟩
      rw [decide_eq_true_eq]
      exact ⟨fun h => h ▸ hrecount, fun h => h.unique hrecount⟩
  · obtain ⟨a', ha', -, hsummary, hconsistent⟩ := accept_respelled hfit hfit' hrespelled ha
    exact ⟨a', ha', hsummary, hconsistent⟩

/-- A payload of items and counts. -/
def report (items : List Value) (counts : List (String × Value)) : List (String × Value) :=
  [("summary", .obj counts), ("tokens", .arr items)]

/-- The item of a token without a place. -/
def unplaced (kind lexeme : String) : Value := .obj [("type", .str kind), ("value", .str lexeme)]

/-- A report of fitting items and counts fits. -/
theorem fit_report {items : List Value} (hitems : ∀ v ∈ items, v.Fit)
    (hcounts : ∀ m ∈ counts, m.2.Fit) : (Value.obj (report items counts)).Fit :=
  .obj (List.forall_mem_cons.mpr ⟨.obj hcounts, List.forall_mem_singleton.mpr (.arr hitems)⟩)

theorem fit_unplaced (kind lexeme : String) : (unplaced kind lexeme).Fit :=
  .obj (List.forall_mem_cons.mpr ⟨.str kind, List.forall_mem_singleton.mpr (.str lexeme)⟩)

/-- A kind that is counted with no tokens is a disagreement, and stays one if the tokens trade
places and the known kinds change their spelling. -/
theorem accept_zeroCount :
    let odd := unplaced "odd" "?"
    ∃ a a', accept (.obj (report [unplaced "keyword" "if", odd]
        [("Keyword", .nat 1), ("number", .nat 0), ("odd", .nat 1)])) = .ok a ∧
      accept (.obj (report [odd, unplaced " KEYWORD" "if"]
        [("Number", .nat 0), ("keyWord\t", .nat 1), ("odd", .nat 1)])) = .ok a' ∧
      a.consistent = false ∧ a'.consistent = false := by
  intro odd
  have hrefuted : (accept (.obj (report [unplaced "keyword" "if", odd]
      [("Keyword", .nat 1), ("number", .nat 0), ("odd", .nat 1)]))).toOption.any
      (fun a => a.consistent = false) = true := by
    decide +kernel
  obtain ⟨a, ha, hrefuted⟩ := exists_ok_of_any hrefuted
  have hfalse := of_decide_eq_true hrefuted
  have hkind : Kind.Respelled "keyword" " KEYWORD" :=
    .alike (by decide +kernel) (@Text.Alike.intro "keyword" " KEYWORD" [] "keyword".toList []
      [' '] "KEYWORD".toList [] rfl rfl (by simp) (by simp; rfl) (by decide))
  have hkeyword : Kind.Respelled "Keyword" "keyWord\t" :=
    .alike (by decide +kernel) (@Text.Alike.intro "Keyword" "keyWord\t" [] "Keyword".toList []
      [] "keyWord".toList ['\t'] rfl rfl (by simp) (by simp; rfl) (by decide))
  have hnumber : Kind.Respelled "number" "Number" :=
    .alike (by decide +kernel) (@Text.Alike.intro "number" "Number" [] "number".toList []
      [] "Number".toList [] rfl rfl (by simp) (by simp) (by decide))
  have hitem : RespelledItem (unplaced "keyword" "if") (unplaced " KEYWORD" "if") :=
    .intro rfl rfl hkind (by simp [member?, Keyed.find?])
  have hodd : RespelledItem odd odd := .intro rfl rfl .same fun _ _ => rfl
  -- Tokens and counts are swapped, and three names respelled.
  have hrespelled : Respelled
      (report [unplaced "keyword" "if", odd]
        [("Keyword", .nat 1), ("number", .nat 0), ("odd", .nat 1)])
      (report [odd, unplaced " KEYWORD" "if"]
        [("Number", .nat 0), ("keyWord\t", .nat 1), ("odd", .nat 1)]) :=
    .intro rfl rfl ⟨_, .swap _ _ _, .cons hodd (.cons hitem .nil)⟩
      (.counts ⟨_, .swap _ _ _,
        .cons ⟨hnumber, rfl⟩ (.cons ⟨hkeyword, rfl⟩ (.cons ⟨.same, rfl⟩ .nil))⟩)
  have hzero : (Value.nat 0).Fit := .int (by decide) (by decide)
  have hone : (Value.nat 1).Fit := .int (by decide) (by decide)
  obtain ⟨-, hkept⟩ :=
    accept_consistent (fit_report (by simp [odd, fit_unplaced]) (by simp [hzero, hone])) ha
  obtain ⟨a', ha', -, hconsistent⟩ :=
    hkept _ (fit_report (by simp [odd, fit_unplaced]) (by simp [hzero, hone])) hrespelled
  exact ⟨a, a', ha, ha', hfalse, hconsistent.trans hfalse⟩

end Remote

end PolyLex
