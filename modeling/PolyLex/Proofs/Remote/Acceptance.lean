import Mathlib.Data.List.Forall2
import PolyLex.Proofs.Json.Fit
import PolyLex.Remote.Accepted

/-!
# Which payloads are accepted

The demands on a remote listing as a grammar of values: `IsPosition`, `IsToken`, `IsSummary` and
`IsPayload` say what each part has to look like, and `IsToken` also which token it stands for. A
relation mentions the members it depends on, and no others, so what else a payload holds has no
influence.

Each reader accepts exactly its part of the grammar (`readPosition_eq_ok_iff` and its companions),
and so a payload is accepted with some tokens exactly when it is a payload of these tokens
(`accept_iff_isPayload`). The grammar says nothing of sums. Counts of one kind under several
spellings are added up, and where a sum is no machine word reading breaks off; `AddsUp` says that
there is no such sum.
-/

namespace PolyLex.Remote

open Json

/-! ### The grammar -/

/-- A line or a column: nothing, or a positive whole number of 64 bits. -/
inductive IsPosition : Option Value → Option Nat → Prop
  | absent : IsPosition none none
  | null : IsPosition (some .null) none
  | given {n : Nat} : 0 < n → n < countRange → IsPosition (some (.int n)) (some n)

/-- A token is an object with a kind that is not blank and a lexeme; it may have a place. -/
inductive IsToken : Value → Token → Prop
  | intro {members : List (String × Value)} {name lexeme : String} {line column : Option Nat} :
      member? members "type" = some (.str name) → (∃ c ∈ name.toList, Text.isBlank c = false) →
      member? members "value" = some (.str lexeme) →
      IsPosition (member? members "line") line →
      IsPosition (member? members "position") column →
      IsToken (.obj members) ⟨Kind.ofName name, lexeme, line, column⟩

/-- A summary: nothing, or an object of whole numbers of 64 bits without sign. -/
inductive IsSummary : Option Value → Prop
  | absent : IsSummary none
  | null : IsSummary (some .null)
  | counts {counts : List (String × Value)} :
      (∀ m ∈ counts, ∃ n : Nat, n < countRange ∧ m.2 = .int n) → IsSummary (some (.obj counts))

/-- A payload is an object with an array of tokens and perhaps a summary. -/
inductive IsPayload : Value → List Token → Prop
  | intro {members : List (String × Value)} {items : List Value} {tokens : List Token} :
      member? members "tokens" = some (.arr items) → List.Forall₂ IsToken items tokens →
      IsSummary (member? members "summary") → IsPayload (.obj members) tokens

/-- The sum of the counts of a kind, over all its spellings. -/
def reportedCount (name : String) : List (String × Value) → Nat
  | [] => 0
  | (key, v) :: rest =>
    (if (Kind.ofName key).name = name then v.nat?.getD 0 else 0) + reportedCount name rest

/-- The counts that a payload reports come to machine words when those of one kind are added up. -/
def AddsUp (v : Value) : Prop :=
  ∀ members counts, v = .obj members → member? members "summary" = some (.obj counts) →
    ∀ name, reportedCount name counts < countRange

/-! ### Members of fit objects -/

variable {members : List (String × Value)}

/-- What is looked up in a fitting value fits. -/
theorem fit_of_member? {key : String} {v : Value} (hfit : (Value.obj members).Fit)
    (h : member? members key = some v) : v.Fit := by
  cases hfit with
  | obj hmembers => exact hmembers (key, v) (Keyed.mem_of_find? h)

theorem fit_of_items {key : String} {items : List Value} (hfit : (Value.obj members).Fit)
    (h : member? members key = some (.arr items)) : ∀ v ∈ items, v.Fit := by
  cases fit_of_member? hfit h with
  | arr hitems => exact hitems

theorem fit_of_counts {key : String} {counts : List (String × Value)}
    (hfit : (Value.obj members).Fit) (h : member? members key = some (.obj counts)) :
    ∀ m ∈ counts, m.2.Fit := by
  cases fit_of_member? hfit h with
  | obj hcounts => exact hcounts

/-- In a fitting value a natural number is one of a machine word. -/
theorem nat?_eq_some_iff_of_fit {v : Value} (hfit : v.Fit) {n : Nat} :
    v.nat? = some n ↔ n < countRange ∧ v = .int n := by
  rw [Value.nat?_eq_some_iff]
  constructor
  · rintro rfl
    cases hfit with
    | int _ hhigh => exact ⟨Int.ofNat_lt.mp hhigh, rfl⟩
  · exact And.right

/-! ### Tokens -/

/-- Two readings one after the other. -/
theorem bind_eq_ok_iff {ε α β : Type} {x : Except ε α} {f : α → Except ε β} {b : β} :
    x >>= f = .ok b ↔ ∃ a, x = .ok a ∧ f a = .ok b := by
  cases x <;> simp [bind, Except.bind]

/-- What is read does not depend on what is made of failures. -/
theorem mapError_eq_ok_iff {ε ε' α : Type} {x : Except ε α} {f : ε → ε'} {a : α} :
    x.mapError f = .ok a ↔ x = .ok a := by
  cases x <;> simp [Except.mapError]

/-- Of two readings one after the other the first that fails is the one reported. -/
theorem bind_eq_error_iff {ε α β : Type} {x : Except ε α} {f : α → Except ε β} {e : ε} :
    x >>= f = .error e ↔ x = .error e ∨ ∃ a, x = .ok a ∧ f a = .error e := by
  cases x <;> simp [bind, Except.bind]

/-- An error that is reworded comes from an error. -/
theorem mapError_eq_error_iff {ε ε' α : Type} {x : Except ε α} {f : ε → ε'} {e : ε'} :
    x.mapError f = .error e ↔ ∃ e₀, x = .error e₀ ∧ f e₀ = e := by
  cases x <;> simp [Except.mapError]

/-- A position is read just if there is none or a positive one. -/
theorem readPosition_eq_ok_iff (hfit : (Value.obj members).Fit) {key field : String}
    {place : Option Nat} :
    readPosition members key field = .ok place ↔ IsPosition (member? members key) place := by
  unfold readPosition
  split
  · next h =>
    rw [h]
    constructor
    · rintro ⟨⟩
      exact .absent
    · rintro ⟨⟩
      rfl
  · next h =>
    rw [h]
    constructor
    · rintro ⟨⟩
      exact .null
    · rintro ⟨⟩
      rfl
  · next v hnull h =>
    -- anything but `null` has to be a number, and zero is none that counts
    rw [h]
    split
    · next n hn =>
      obtain ⟨hrange, rfl⟩ := (nat?_eq_some_iff_of_fit (fit_of_member? hfit h)).mp hn
      constructor
      · rintro ⟨⟩
        exact .given n.succ_pos hrange
      · rintro ⟨⟩
        rfl
    · next hn =>
      constructor
      · rintro ⟨⟩
      · rintro ⟨⟩
        · exact absurd rfl hnull
        · next n hpos hrange =>
          cases n with
          | zero => exact absurd hpos (Nat.lt_irrefl 0)
          | succ n => exact absurd rfl (hn n)

/-- A kind is read just if there is a type with a visible character in it. -/
theorem readKind_eq_ok_iff {field : String} {kind : Kind} :
    readKind members field = .ok kind ↔ ∃ name, member? members "type" = some (.str name) ∧
      (∃ c ∈ name.toList, Text.isBlank c = false) ∧ Kind.ofName name = kind := by
  unfold readKind
  split
  · next name h =>
    rw [h]
    split
    · next hblank =>
      constructor
      · rintro ⟨⟩
      · rintro ⟨_, ⟨⟩, ⟨c, hc, hvisible⟩, -⟩
        rw [List.all_eq_true.mp hblank c hc] at hvisible
        cases hvisible
    -- A visible character makes the name a kind, known or not.
    · next hvisible =>
      rw [Text.isBlankText, List.all_eq_true] at hvisible
      push Not at hvisible
      obtain ⟨c, hc, hvisible⟩ := hvisible
      rw [Except.ok.injEq]
      constructor
      · rintro rfl
        exact ⟨name, rfl, ⟨c, hc, Bool.eq_false_iff.mpr hvisible⟩, rfl⟩
      · rintro ⟨_, ⟨⟩, -, hkind⟩
        exact hkind
  · next v hstr h =>
    rw [h]
    constructor
    · rintro ⟨⟩
    · rintro ⟨name, ⟨⟩, -⟩
      exact absurd rfl (hstr name)
  · next h => simp [h]

/-- A lexeme is read just if there is a value and it is a text. -/
theorem readLexeme_eq_ok_iff {field lexeme : String} : readLexeme members field = .ok lexeme ↔
    member? members "value" = some (.str lexeme) := by
  unfold readLexeme
  split
  · next s h => simp [h]
  · next v hstr h =>
    rw [h]
    constructor
    · rintro ⟨⟩
    · rintro ⟨⟩
      exact absurd rfl (hstr lexeme)
  · next h => simp [h]

/-- A token is read just if the value is one, by the grammar. -/
theorem readToken_eq_ok_iff {i : Nat} {v : Value} {t : Token} (hfit : v.Fit) :
    readToken i v = .ok t ↔ IsToken v t := by
  unfold readToken
  split
  · next h =>
    constructor
    · rintro ⟨⟩
    · rintro ⟨⟩
      cases h
  · next members h =>
    cases v with
    | obj members =>
      cases h
      simp only [bind_eq_ok_iff, readPosition_eq_ok_iff hfit, readKind_eq_ok_iff,
        readLexeme_eq_ok_iff, pure, Except.pure, Except.ok.injEq]
      constructor
      · rintro ⟨_, ⟨name, htype, hvisible, rfl⟩, lexeme, hlexeme, line, hline, column, hcolumn, rfl⟩
        exact .intro htype hvisible hlexeme hline hcolumn
      · intro ht
        cases ht with
        | intro htype hvisible hlexeme hline hcolumn =>
          exact ⟨_, ⟨_, htype, hvisible, rfl⟩, _, hlexeme, _, hline, _, hcolumn, rfl⟩
    | _ => cases h

/-- Tokens are read just if each of the values is one. -/
theorem readTokens_eq_ok_iff {items : List Value} (hfit : ∀ v ∈ items, v.Fit) (i : Nat)
    {tokens : List Token} :
    readTokens i items = .ok tokens ↔ List.Forall₂ IsToken items tokens := by
  induction items generalizing i tokens with
  | nil =>
    rw [readTokens, List.forall₂_nil_left_iff, Except.ok.injEq]
    exact eq_comm
  | cons v items ih =>
    obtain ⟨hv, hitems⟩ := List.forall_mem_cons.mp hfit
    rw [readTokens, List.forall₂_cons_left_iff]
    simp only [bind_eq_ok_iff, readToken_eq_ok_iff hv, ih hitems]
    constructor
    · rintro ⟨t, ht, ts, hts, ⟨⟩⟩
      exact ⟨t, ts, ht, hts, rfl⟩
    · rintro ⟨t, ts, ht, hts, rfl⟩
      exact ⟨t, ht, ts, hts, rfl⟩

theorem exists_token_of_mem {items : List Value} {tokens : List Token}
    (h : List.Forall₂ IsToken items tokens) :
    ∀ item ∈ items, ∃ t ∈ tokens, IsToken item t := by
  induction h with
  | nil => simp
  | cons ht _ ih =>
    refine List.forall_mem_cons.mpr ⟨⟨_, List.mem_cons_self, ht⟩, fun item hitem => ?_⟩
    obtain ⟨t, hmem, ht⟩ := ih item hitem
    exact ⟨t, List.mem_cons_of_mem _ hmem, ht⟩

theorem exists_item_of_mem {items : List Value} {tokens : List Token}
    (h : List.Forall₂ IsToken items tokens) :
    ∀ t ∈ tokens, ∃ item ∈ items, IsToken item t := by
  induction h with
  | nil => simp
  | cons ht _ ih =>
    refine List.forall_mem_cons.mpr ⟨⟨_, List.mem_cons_self, ht⟩, fun t hmem => ?_⟩
    obtain ⟨item, hitem, ht⟩ := ih t hmem
    exact ⟨item, List.mem_cons_of_mem _ hitem, ht⟩

/-! ### Summaries -/

theorem reportedCount_append (name : String) (counts counts' : List (String × Value)) :
    reportedCount name (counts ++ counts') =
      reportedCount name counts + reportedCount name counts' := by
  induction counts with
  | nil => exact (Nat.zero_add _).symm
  | cons m counts ih => rw [List.cons_append, reportedCount, reportedCount, ih, Nat.add_assoc]

/-- One count is added, if the sum is a machine word, and then the others. -/
theorem readCounts_cons {summary : Summary} {key : String} {v : Value} {n : Nat}
    (hv : v.nat? = some n) (counts : List (String × Value)) :
    readCounts summary ((key, v) :: counts) =
      let kind := (Kind.ofName key).name
      if summary.count kind + n < countRange then
        readCounts (summary.insert kind (summary.count kind + n)) counts
      else .error (.fault .overflow) := by
  rw [readCounts, hv]
  dsimp only [addCounts]
  by_cases hsum : summary.count (Kind.ofName key).name + n < countRange
  · rw [if_pos hsum, if_pos hsum]
  · rw [if_neg hsum, if_neg hsum]

/-- A count that is added to a summary is no longer among those to be added. -/
theorem count_insert_add (summary : Summary) (key : String) {v : Value} {n : Nat}
    (hv : v.nat? = some n) (counts : List (String × Value)) (name : String) :
    (summary.insert (Kind.ofName key).name (summary.count (Kind.ofName key).name + n)).count name +
        reportedCount name counts =
      summary.count name + reportedCount name ((key, v) :: counts) := by
  rw [Summary.count_insert, reportedCount, hv, Option.getD_some]
  split
  · next hkey => rw [hkey, Nat.add_assoc]
  · rw [Nat.zero_add]

/-- Counts are read just if each is a machine word and each sum with what is there is one too. -/
theorem exists_readCounts_iff {counts : List (String × Value)} (hfit : ∀ m ∈ counts, m.2.Fit)
    {summary : Summary} (hwords : ∀ name, summary.count name < countRange) :
    (∃ reported, readCounts summary counts = .ok reported) ↔
      (∀ m ∈ counts, ∃ n : Nat, n < countRange ∧ m.2 = .int n) ∧
        ∀ name, summary.count name + reportedCount name counts < countRange := by
  induction counts generalizing summary with
  | nil => simpa [readCounts, reportedCount] using hwords
  | cons m counts ih =>
    obtain ⟨key, v⟩ := m
    obtain ⟨hv, hcounts⟩ := List.forall_mem_cons.mp hfit
    rw [List.forall_mem_cons]
    cases hn : v.nat? with
    | none =>
      rw [readCounts, hn]
      constructor
      · rintro ⟨_, ⟨⟩⟩
      · rintro ⟨⟨⟨n, hrange, hint⟩, -⟩, -⟩
        rw [(nat?_eq_some_iff_of_fit hv).mpr ⟨hrange, hint⟩] at hn
        cases hn
    | some n =>
      have hadd := count_insert_add summary key hn counts
      rw [readCounts_cons hn]
      dsimp only
      by_cases hsum : summary.count (Kind.ofName key).name + n < countRange
      · have hwords' : ∀ name, (summary.insert (Kind.ofName key).name
            (summary.count (Kind.ofName key).name + n)).count name < countRange := by
          intro name
          rw [Summary.count_insert]
          split
          · exact hsum
          · exact hwords name
        rw [if_pos hsum, ih hcounts hwords']
        simp only [hadd]
        exact and_congr_left' ⟨fun hall => ⟨⟨n, (nat?_eq_some_iff_of_fit hv).mp hn⟩, hall⟩, And.right⟩
      · -- the sum of this kind is too large already
        rw [if_neg hsum]
        constructor
        · rintro ⟨_, ⟨⟩⟩
        · rintro ⟨-, hsums⟩
          have hkind := hsums (Kind.ofName key).name
          rw [reportedCount, if_pos rfl, hn, Option.getD_some] at hkind
          exact absurd hkind (by omega)

/-- Counts are not read to their end because of the first that is none, or of the first that makes
the sum of its kind too large. -/
theorem exists_of_readCounts_eq_error {counts : List (String × Value)} {summary : Summary}
    {stop : Stop Violation} (h : readCounts summary counts = .error stop) :
    ∃ before name w after reported, counts = before ++ (name, w) :: after ∧
      readCounts summary before = .ok reported ∧
      (w.nat? = none ∧ stop = .failure (.malformed ("summary." ++ name)
          "summary counts must be non-negative integers") ∨
        (∃ n, w.nat? = some n) ∧ stop = .fault .overflow ∧
          ∃ kind, countRange ≤ summary.count kind + reportedCount kind (before ++ [(name, w)])) := by
  induction counts generalizing summary with
  | nil => cases h
  | cons m counts ih =>
    obtain ⟨name, w⟩ := m
    cases hn : w.nat? with
    | none =>
      rw [readCounts, hn] at h
      cases h
      exact ⟨[], name, w, counts, summary, rfl, rfl, .inl ⟨hn, rfl⟩⟩
    | some n =>
      rw [readCounts_cons hn] at h
      dsimp only at h
      split at h
      -- The sum of the entry at hand is the one that overflows.
      · next hsum =>
        -- The entry at hand is counted, and the reading stops further on.
        obtain ⟨before, name', w', after, reported, rfl, hread, hstop⟩ := ih h
        refine ⟨(name, w) :: before, name', w', after, reported, rfl, ?_, hstop.imp_right ?_⟩
        · rw [readCounts_cons hn]
          exact (if_pos hsum).trans hread
        · rintro ⟨hcount, hfault, kind, hkind⟩
          rw [count_insert_add summary name hn] at hkind
          exact ⟨hcount, hfault, kind, hkind⟩
      · next hsum =>
        cases h
        refine ⟨[], name, w, counts, summary, rfl, rfl,
          .inr ⟨⟨n, hn⟩, rfl, (Kind.ofName name).name, ?_⟩⟩
        rw [List.nil_append, reportedCount, if_pos rfl, hn, Option.getD_some]
        omega

/-- Reading starts from a summary that counts nothing. -/
theorem exists_readCounts_empty_iff {counts : List (String × Value)}
    (hfit : ∀ m ∈ counts, m.2.Fit) : (∃ reported, readCounts ∅ counts = .ok reported) ↔
      (∀ m ∈ counts, ∃ n : Nat, n < countRange ∧ m.2 = .int n) ∧
        ∀ name, reportedCount name counts < countRange := by
  have hzero : ∀ name, (∅ : Summary).count name = 0 := fun _ => rfl
  rw [exists_readCounts_iff hfit fun name => by rw [hzero]; decide]
  simp only [hzero, Nat.zero_add]

/-- A summary is read just if it has the right form and its counts add up to machine words. -/
theorem exists_readSummary_iff (hfit : (Value.obj members).Fit) (tokens : List Token) :
    (∃ out, readSummary members tokens = .ok out) ↔
      IsSummary (member? members "summary") ∧ AddsUp (.obj members) := by
  -- Whether counts add up is a matter of the summary alone.
  have hadds : AddsUp (.obj members) ↔ ∀ counts, member? members "summary" = some (.obj counts) →
      ∀ name, reportedCount name counts < countRange :=
    ⟨fun h counts => h members counts rfl, by rintro h _ counts ⟨⟩; exact h counts⟩
  rw [hadds]
  unfold readSummary
  dsimp only
  split
  · next h => simp [h, IsSummary.absent]
  · next h => simp [h, IsSummary.null]
  · next counts h =>
    rw [h]
    have hcounts := exists_readCounts_empty_iff (fit_of_counts hfit h)
    simp only [bind_eq_ok_iff, pure, Except.pure, Except.ok.injEq]
    constructor
    · rintro ⟨_, reported, hreported, -⟩
      obtain ⟨hall, hsums⟩ := hcounts.mp ⟨reported, hreported⟩
      exact ⟨.counts hall, by rintro _ ⟨⟩; exact hsums⟩
    · rintro ⟨hsummary, hsums⟩
      cases hsummary with
      | counts hall =>
        obtain ⟨reported, hreported⟩ := hcounts.mpr ⟨hall, hsums counts rfl⟩
        exact ⟨_, reported, hreported, rfl⟩
  · next v hnull hobj h =>
    rw [h]
    constructor
    · rintro ⟨_, ⟨⟩⟩
    · rintro ⟨hsummary, -⟩
      cases hsummary with
      | null => exact absurd rfl hnull
      | counts hall => exact absurd rfl (hobj _)

/-! ### Payloads -/

/-- What is accepted: an object whose tokens and summary are read. -/
theorem accept_eq_ok_iff {v : Value} {a : Accepted} : accept v = .ok a ↔
    ∃ members items tokens summary consistent, v = .obj members ∧
      member? members "tokens" = some (.arr items) ∧ readTokens 0 items = .ok tokens ∧
      readSummary members tokens = .ok (summary, consistent) ∧
      a = ⟨⟨tokens, summary⟩, consistent⟩ := by
  constructor
  · intro h
    unfold accept at h
    split at h
    · cases h
    · next members hobj =>
      split at h
      · next items hitems =>
        -- The three readers have to succeed one after the other.
        simp only [bind_eq_ok_iff, mapError_eq_ok_iff, pure, Except.pure, Except.ok.injEq] at h
        obtain ⟨tokens, htokens, ⟨summary, consistent⟩, hsummary, rfl⟩ := h
        cases v with
        | obj members' =>
          cases hobj
          exact ⟨members, items, tokens, summary, consistent, rfl, hitems, htokens, hsummary, rfl⟩
        | _ => cases hobj
      · cases h
      · cases h
  · rintro ⟨members, items, tokens, summary, consistent, rfl, hitems, htokens, hsummary, rfl⟩
    simp only [accept, Value.members?, hitems, bind_eq_ok_iff, mapError_eq_ok_iff]
    exact ⟨tokens, htokens, _, hsummary, rfl⟩

/-- Reading breaks off among the counts, when all tokens are read. -/
theorem exists_counts_of_fault {v : Value} {fault : ArithmeticFault}
    (h : accept v = .error (.fault fault)) :
    ∃ members items tokens counts, v = .obj members ∧
      member? members "tokens" = some (.arr items) ∧ readTokens 0 items = .ok tokens ∧
      member? members "summary" = some (.obj counts) ∧
      readCounts ∅ counts = .error (.fault fault) := by
  unfold accept at h
  split at h
  · cases h
  · next members hobj =>
    split at h
    · next items hitems =>
      -- Tokens can fail, but they count nothing.
      rcases bind_eq_error_iff.mp h with htokens | ⟨tokens, htokens, h⟩
      · obtain ⟨e, -, heq⟩ := mapError_eq_error_iff.mp htokens
        cases heq
      rcases bind_eq_error_iff.mp h with hsummary | ⟨_, -, h⟩
      · unfold readSummary at hsummary
        dsimp only at hsummary
        split at hsummary
        · cases hsummary
        · cases hsummary
        · next counts hcounts =>
          rcases bind_eq_error_iff.mp hsummary with hread | ⟨_, -, hread⟩
          · cases v with
            | obj members' =>
              cases hobj
              exact ⟨members, items, tokens, counts, rfl, hitems, mapError_eq_ok_iff.mp htokens,
                hcounts, hread⟩
            | _ => cases hobj
          · cases hread
        · cases hsummary
      · cases h
    · cases h
    · cases h

/-- No fault arises from counts that add up. -/
theorem not_addsUp_of_fault {v : Value} {fault : ArithmeticFault}
    (h : accept v = .error (.fault fault)) : ¬ AddsUp v := by
  obtain ⟨members, items, tokens, counts, rfl, -, -, hcounts, hread⟩ := exists_counts_of_fault h
  intro hadds
  obtain ⟨before, name, w, after, reported, rfl, -, hstop⟩ := exists_of_readCounts_eq_error hread
  rcases hstop with ⟨-, hstop⟩ | ⟨-, -, kind, hsum⟩
  · cases hstop
  · -- the counts up to this one are among all of them
    have hzero : (∅ : Summary).count kind = 0 := rfl
    have hall := hadds members _ rfl hcounts kind
    rw [List.append_cons, reportedCount_append] at hall
    omega

/-- A payload is accepted with some tokens exactly if it is a payload of these tokens, one for each
item of its array in the same order, and its counts add up to machine words. -/
theorem accept_iff_isPayload {v : Value} (hfit : v.Fit) (tokens : List Token) :
    (∃ a, accept v = .ok a ∧ a.listing.tokens = tokens) ↔ IsPayload v tokens ∧ AddsUp v := by
  constructor
  · rintro ⟨a, ha, rfl⟩
    obtain ⟨members, items, tokens, summary, consistent, rfl, hitems, htokens, hsummary, rfl⟩ :=
      accept_eq_ok_iff.mp ha
    obtain ⟨hsummary, hadds⟩ := (exists_readSummary_iff hfit tokens).mp ⟨_, hsummary⟩
    exact ⟨.intro hitems ((readTokens_eq_ok_iff (fit_of_items hfit hitems) 0).mp htokens) hsummary,
      hadds⟩
  · rintro ⟨hpayload, hadds⟩
    cases hpayload with
    | intro hitems htokens hsummary =>
      have htokens := (readTokens_eq_ok_iff (fit_of_items hfit hitems) 0).mpr htokens
      obtain ⟨⟨summary, consistent⟩, hsummary⟩ :=
        (exists_readSummary_iff hfit tokens).mpr ⟨hsummary, hadds⟩
      exact ⟨_, accept_eq_ok_iff.mpr
        ⟨_, _, tokens, summary, consistent, rfl, hitems, htokens, hsummary, rfl⟩, rfl⟩

/-- A payload whose token has a field of no concern and a place that is `null`. -/
def sample : String :=
  "\x7b\"tokens\": [\x7b\"type\": \"KEYWORD\", \"value\": \"if\"," ++
    " \"line\": 18446744073709551615, \"position\": null, \"note\": 1.5\x7d]," ++
    " \"summary\": \x7b\"odd\": 0\x7d\x7d"

/-- The payload is accepted, so it is one of its token, and its counts add up. -/
theorem isPayload_sample : ∃ v, parse sample = .ok v ∧ v.Fit ∧
    IsPayload v [⟨.keyword, "if", some 18446744073709551615, none⟩] ∧ AddsUp v := by
  have haccept : (parse sample).toOption.any (fun v => (accept v).toOption.any fun a =>
      a.listing.tokens = [⟨.keyword, "if", some 18446744073709551615, none⟩]) = true := by
    decide +kernel
  obtain ⟨v, hv, haccept⟩ := exists_ok_of_any haccept
  obtain ⟨a, ha, htokens⟩ := exists_ok_of_any haccept
  exact ⟨v, hv, fit_of_parse hv,
    (accept_iff_isPayload (fit_of_parse hv) _).mp ⟨a, ha, of_decide_eq_true htokens⟩⟩

end PolyLex.Remote
