import PolyLex.Proofs.Config.Overlay
import PolyLex.Proofs.Remote.Acceptance

/-!
# The demand that is reported

A payload that is refused may fail to meet many demands at once. Here every demand is a value:
`Demand.Met` says when a payload meets it, `Demand.violation` how its failure is reported, and
`Demand.Before` in which order the demands are made. A payload is refused with the first demand that
it does not meet, and with no other (`accept_eq_error_iff`).

A demand on a part of the payload says something only of a part that is there: that it is there is a
demand of its own, which is made before. Counts are added up as they are read, so the demand on a
count is come to only if those before it add up (`Demand.Reached`); else reading breaks off, and no
demand is reported.
-/

namespace PolyLex.Remote

open Json

/-! ### Demands on a token -/

/-- The part of an object under a name. Other values have no parts. -/
def part? (v : Value) (name : String) : Option Value := v.members?.bind (member? · name)

@[simp] theorem part?_obj (members : List (String × Value)) (name : String) :
    part? (.obj members) name = member? members name := rfl

/-- What is demanded of a token, in the order in which it is demanded. -/
inductive TokenDemand where
  | isObject
  | hasType
  | typeNamed
  | hasValue
  | valueText
  | line
  | position
  deriving Repr, DecidableEq

namespace TokenDemand

/-- Does an item of the list meet the demand? -/
def Met (item : Value) : TokenDemand → Prop
  | isObject => item.members?.isSome
  | hasType => (part? item "type").isSome
  | typeNamed => ∃ name : String, part? item "type" = some (.str name) ∧
      ∃ c ∈ name.toList, Text.isBlank c = false
  | hasValue => (part? item "value").isSome
  | valueText => ∃ s, part? item "value" = some (.str s)
  | line => ∃ place, IsPosition (part? item "line") place
  | position => ∃ place, IsPosition (part? item "position") place

/-- Is the demand that a part be there? -/
def asksPresence : TokenDemand → Bool
  | hasType | hasValue => true
  | _ => false

/-- How it is reported that a token does not meet the demand. -/
def violation (token : String) : TokenDemand → Violation
  | isObject => .malformed token "token must be an object"
  | hasType => .missing (token ++ ".type")
  | typeNamed => .malformed (token ++ ".type") "'type' must be a non-empty string"
  | hasValue => .missing (token ++ ".value")
  | valueText => .malformed (token ++ ".value") "'value' must be a string"
  | line => .malformed (token ++ ".line") "'line' must be a positive integer"
  | position => .malformed (token ++ ".position") "'position' must be a positive integer"

/-- The item meets the first `k` demands. -/
def MeetsFirst (item : Value) (k : Nat) : Prop := ∀ d : TokenDemand, d.ctorIdx < k → d.Met item

/-- The item does not meet the demand, and it meets all that are made before. -/
structure IsFirst (d : TokenDemand) (item : Value) : Prop where
  unmet : ¬ d.Met item
  met : MeetsFirst item d.ctorIdx

/-- Demands on a token are told apart by their place in the order. -/
theorem eq_of_ctorIdx_eq {d d' : TokenDemand} (h : d.ctorIdx = d'.ctorIdx) : d = d' := by
  rw [← ofNat_ctorIdx d, h, ofNat_ctorIdx]

theorem meetsFirst_zero (item : Value) : MeetsFirst item 0 :=
  fun _ hd => absurd hd (Nat.not_lt_zero _)

/-- The demand after the first ones is met as well. -/
theorem MeetsFirst.succ {item : Value} {k : Nat} (h : MeetsFirst item k) (d : TokenDemand)
    (hd : d.ctorIdx = k) (hmet : d.Met item) : MeetsFirst item (k + 1) := by
  intro d' hd'
  rcases Nat.lt_succ_iff_lt_or_eq.mp hd' with hlt | heq
  · exact h d' hlt
  · rw [eq_of_ctorIdx_eq (heq.trans hd.symm)]
    exact hmet

/-- An item meets all demands exactly if it is a token. -/
theorem forall_met_iff {item : Value} : (∀ d : TokenDemand, d.Met item) ↔ ∃ t, IsToken item t := by
  constructor
  · intro h
    obtain ⟨members, hmembers⟩ := Option.isSome_iff_exists.mp (h isObject)
    obtain ⟨name, hname, hvisible⟩ := h typeNamed
    obtain ⟨s, hs⟩ := h valueText
    obtain ⟨line, hline⟩ := h line
    obtain ⟨column, hcolumn⟩ := h position
    cases item with
    | obj members' => exact ⟨_, .intro hname hvisible hs hline hcolumn⟩
    | _ => cases hmembers
  · rintro ⟨t, ht⟩ d
    cases ht with
    | intro htype hvisible hvalue hline hcolumn =>
      cases d with
      | isObject => rfl
      | hasType => exact Option.isSome_iff_exists.mpr ⟨_, htype⟩
      | typeNamed => exact ⟨_, htype, hvisible⟩
      | hasValue => exact Option.isSome_iff_exists.mpr ⟨_, hvalue⟩
      | valueText => exact ⟨_, hvalue⟩
      | line => exact ⟨_, hline⟩
      | position => exact ⟨_, hcolumn⟩

end TokenDemand

/-! ### Demands on a payload -/

/-- The item of the list of tokens at a place. -/
def item? (v : Value) (i : Nat) : Option Value :=
  match part? v "tokens" with
  | some (.arr items) => items[i]?
  | _ => none

/-- A whole number of 64 bits without sign. -/
def IsCount (v : Value) : Prop := ∃ n : Nat, n < countRange ∧ v = .int n

/-- What is demanded of a payload, in the order in which it is demanded. -/
inductive Demand where
  | isObject
  | hasTokens
  | tokensArray
  | token (i : Nat) (d : TokenDemand)
  | summaryObject
  | count (name : String)
  deriving Repr, DecidableEq

namespace Demand

/-- Does a payload meet the demand? -/
def Met (v : Value) : Demand → Prop
  | isObject => v.members?.isSome
  | hasTokens => (part? v "tokens").isSome
  | tokensArray => ∃ items, part? v "tokens" = some (.arr items)
  | token i d => ∀ item ∈ item? v i, d.Met item
  | summaryObject => ∀ w ∈ part? v "summary", w = .null ∨ ∃ counts, w = .obj counts
  | count name => ∀ counts w, part? v "summary" = some (.obj counts) →
      member? counts name = some w → IsCount w

/-- Is the demand that a part be there? -/
def asksPresence : Demand → Bool
  | hasTokens => true
  | token _ d => d.asksPresence
  | _ => false

/-- How it is reported that a payload does not meet the demand. -/
def violation : Demand → Violation
  | isObject => ⟨.format, none, "Result must be a JSON object"⟩
  | hasTokens => .missing "tokens"
  | tokensArray => .malformed "tokens" "'tokens' must be an array"
  | token i d => d.violation (tokenField i)
  | summaryObject => .malformed "summary" "'summary' must be an object"
  | count name => .malformed ("summary." ++ name) "summary counts must be non-negative integers"

/-- The order of the demands: that of their list, and within it tokens go by their places and
counts by their names. -/
inductive Before : Demand → Demand → Prop
  | part {d d' : Demand} : d.ctorIdx < d'.ctorIdx → Before d d'
  | token {i j : Nat} {d d' : TokenDemand} : i < j → Before (.token i d) (.token j d')
  | sameToken {i : Nat} {d d' : TokenDemand} : d.ctorIdx < d'.ctorIdx →
      Before (.token i d) (.token i d')
  | count {name name' : String} : name < name' → Before (.count name) (.count name')

/-- The payload does not meet the demand, and it meets all that are made before. -/
structure IsFirst (d : Demand) (v : Value) : Prop where
  unmet : ¬ d.Met v
  met : ∀ d' : Demand, d'.Before d → d'.Met v

/-- The demand is come to: the counts that are read before come to machine words when those of one
kind are added up. -/
def Reached (v : Value) (d : Demand) : Prop :=
  ∀ name counts, d = count name → part? v "summary" = some (.obj counts) →
    ∀ kind, reportedCount kind (counts.filter (·.1 < name)) < countRange

/-- What is missing is reported as missing, and anything else as badly formed. -/
theorem kind_violation (d : Demand) :
    d.violation.kind = if d.asksPresence then .missingField else .format := by
  cases d with
  | token i d => cases d <;> rfl
  | _ => rfl

/-- Of two demands one is made before the other. -/
theorem before_or_eq_or_before (d d' : Demand) : d.Before d' ∨ d = d' ∨ d'.Before d := by
  rcases Nat.lt_trichotomy d.ctorIdx d'.ctorIdx with hlt | heq | hlt
  · exact .inl (.part hlt)
  -- Demands of one part are ordered by their tokens, or by their names.
  · cases d with
    | token i td =>
      cases d' with
      | token j td' =>
        rcases Nat.lt_trichotomy i j with hij | rfl | hij
        · exact .inl (.token hij)
        · rcases Nat.lt_trichotomy td.ctorIdx td'.ctorIdx with hlt | heq | hlt
          · exact .inl (.sameToken hlt)
          · exact .inr (.inl (by rw [TokenDemand.eq_of_ctorIdx_eq heq]))
          · exact .inr (.inr (.sameToken hlt))
        · exact .inr (.inr (.token hij))
      | _ => simp [Demand.ctorIdx] at heq
    | count name =>
      cases d' with
      | count name' =>
        rcases Std.lt_trichotomy name name' with hlt | rfl | hlt
        · exact .inl (.count hlt)
        · exact .inr (.inl rfl)
        · exact .inr (.inr (.count hlt))
      | _ => simp [Demand.ctorIdx] at heq
    | _ => cases d' <;> first | exact .inr (.inl rfl) | simp [Demand.ctorIdx] at heq
  · exact .inr (.inr (.part hlt))

/-- No two demands are the first that is not met. -/
theorem IsFirst.unique {d d' : Demand} {v : Value} (h : d.IsFirst v) (h' : d'.IsFirst v) :
    d = d' := by
  rcases before_or_eq_or_before d d' with hbefore | heq | hbefore
  · exact absurd (h'.met d hbefore) h.unmet
  · exact heq
  · exact absurd (h.met d' hbefore) h'.unmet

end Demand

/-- The items are those of the tokens, counted from zero. -/
theorem item?_eq {v : Value} {items : List Value} (h : part? v "tokens" = some (.arr items))
    (i : Nat) : item? v i = items[i]? := by
  rw [item?, h]

/-- What fails gives no result. -/
theorem ne_ok_of_eq_error {ε α : Type} {x : Except ε α} {e : ε} (h : x = .error e)
    (a : α) : x ≠ .ok a := by
  rw [h]
  exact nofun

/-! ### Tokens that are refused -/

section Tokens

variable {members : List (String × Value)} {field : String} {e : Violation}

/-- The type of a token is refused for the first of its two demands that is not met. -/
theorem readKind_eq_error (h : readKind members field = .error e) :
    ¬ TokenDemand.hasType.Met (.obj members) ∧ e = TokenDemand.hasType.violation field ∨
      TokenDemand.hasType.Met (.obj members) ∧ ¬ TokenDemand.typeNamed.Met (.obj members) ∧
        e = TokenDemand.typeNamed.violation field := by
  -- A refused kind has no visible name; it is left to see whether it has a name at all.
  have hnamed : ¬ TokenDemand.typeNamed.Met (.obj members) := by
    rintro ⟨name, hname, hvisible⟩
    exact ne_ok_of_eq_error h _ (readKind_eq_ok_iff.mpr ⟨name, hname, hvisible, rfl⟩)
  unfold readKind at h
  split at h
  · next htype =>
    split at h
    · cases h
      exact .inr ⟨Option.isSome_iff_exists.mpr ⟨_, htype⟩, hnamed, rfl⟩
    · cases h
  · next htype =>
    cases h
    exact .inr ⟨Option.isSome_iff_exists.mpr ⟨_, htype⟩, hnamed, rfl⟩
  · next htype =>
    cases h
    exact .inl ⟨by simp [TokenDemand.Met, htype], rfl⟩

/-- The value of a token is refused for the first of its two demands that is not met. -/
theorem readLexeme_eq_error (h : readLexeme members field = .error e) :
    ¬ TokenDemand.hasValue.Met (.obj members) ∧ e = TokenDemand.hasValue.violation field ∨
      TokenDemand.hasValue.Met (.obj members) ∧ ¬ TokenDemand.valueText.Met (.obj members) ∧
        e = TokenDemand.valueText.violation field := by
  have htext : ¬ TokenDemand.valueText.Met (.obj members) := by
    rintro ⟨s, hs⟩
    exact ne_ok_of_eq_error h s (readLexeme_eq_ok_iff.mpr hs)
  unfold readLexeme at h
  split at h
  · cases h
  · next hvalue =>
    cases h
    exact .inr ⟨Option.isSome_iff_exists.mpr ⟨_, hvalue⟩, htext, rfl⟩
  · next hvalue =>
    cases h
    exact .inl ⟨by simp [TokenDemand.Met, hvalue], rfl⟩

/-- A position is refused just if it is none, and the error names it. -/
theorem readPosition_eq_error (hfit : (Value.obj members).Fit) {key : String}
    (h : readPosition members key field = .error e) :
    (¬ ∃ place, IsPosition (member? members key) place) ∧
      e = .malformed (field ++ "." ++ key) ("'" ++ key ++ "' must be a positive integer") := by
  constructor
  · rintro ⟨place, hplace⟩
    exact ne_ok_of_eq_error h place ((readPosition_eq_ok_iff hfit).mpr hplace)
  · unfold readPosition at h
    split at h
    · cases h
    · cases h
    · split at h
      · cases h
      · cases h
        rfl

/-- A token is refused with the first demand that it does not meet. -/
theorem exists_isFirst_of_readToken {i : Nat} {item : Value} (hfit : item.Fit)
    (h : readToken i item = .error e) :
    ∃ d : TokenDemand, d.IsFirst item ∧ e = d.violation (tokenField i) := by
  have hzero := TokenDemand.meetsFirst_zero item
  unfold readToken at h
  split at h
  · next hnone =>
    cases h
    exact ⟨.isObject, ⟨by simp [TokenDemand.Met, hnone], hzero⟩, rfl⟩
  · next members hmembers =>
    cases item with
    | obj members =>
      cases hmembers
      have hobject := hzero.succ .isObject rfl rfl
      -- the readers are called in the order of the demands, so those before are met
      rcases bind_eq_error_iff.mp h with hkind | ⟨kind, hkind, h⟩
      · rcases readKind_eq_error hkind with ⟨hunmet, rfl⟩ | ⟨htype, hunmet, rfl⟩
        · exact ⟨.hasType, ⟨hunmet, hobject⟩, rfl⟩
        · exact ⟨.typeNamed, ⟨hunmet, hobject.succ .hasType rfl htype⟩, rfl⟩
      obtain ⟨name, hname, hvisible, -⟩ := readKind_eq_ok_iff.mp hkind
      have htype := (hobject.succ .hasType rfl (Option.isSome_of_eq_some hname)).succ .typeNamed rfl
        ⟨name, hname, hvisible⟩
      rcases bind_eq_error_iff.mp h with hlexeme | ⟨lexeme, hlexeme, h⟩
      · rcases readLexeme_eq_error hlexeme with ⟨hunmet, rfl⟩ | ⟨hvalue, hunmet, rfl⟩
        · exact ⟨.hasValue, ⟨hunmet, htype⟩, rfl⟩
        · exact ⟨.valueText, ⟨hunmet, htype.succ .hasValue rfl hvalue⟩, rfl⟩
      have hlexeme := readLexeme_eq_ok_iff.mp hlexeme
      have hvalue := (htype.succ .hasValue rfl (Option.isSome_of_eq_some hlexeme)).succ .valueText
        rfl ⟨lexeme, hlexeme⟩
      rcases bind_eq_error_iff.mp h with hline | ⟨line, hline, h⟩
      · obtain ⟨hunmet, rfl⟩ := readPosition_eq_error hfit hline
        exact ⟨.line, ⟨hunmet, hvalue⟩, by simp [TokenDemand.violation, String.append_assoc]⟩
      have hline := hvalue.succ .line rfl ⟨line, (readPosition_eq_ok_iff hfit).mp hline⟩
      rcases bind_eq_error_iff.mp h with hposition | ⟨column, -, h⟩
      · obtain ⟨hunmet, rfl⟩ := readPosition_eq_error hfit hposition
        exact ⟨.position, ⟨hunmet, hline⟩, by simp [TokenDemand.violation, String.append_assoc]⟩
      · cases h
    | _ => cases hmembers

/-- A list of tokens is refused for the first item that is no token. -/
theorem exists_isFirst_of_readTokens {items : List Value} (hfit : ∀ v ∈ items, v.Fit) {i : Nat}
    (h : readTokens i items = .error e) : ∃ before item after, items = before ++ item :: after ∧
      (∀ v ∈ before, ∃ t, IsToken v t) ∧
      ∃ d : TokenDemand, d.IsFirst item ∧ e = d.violation (tokenField (i + before.length)) := by
  induction items generalizing i with
  | nil => cases h
  | cons v items ih =>
    obtain ⟨hv, hitems⟩ := List.forall_mem_cons.mp hfit
    rcases bind_eq_error_iff.mp h with hv' | ⟨t, ht, h⟩
    · exact ⟨[], v, items, rfl, by simp, exists_isFirst_of_readToken hv hv'⟩
    · rcases bind_eq_error_iff.mp h with h | ⟨ts, -, h⟩
      · obtain ⟨before, item, after, rfl, hbefore, d, hd, rfl⟩ := ih hitems h
        refine ⟨v :: before, item, after, rfl, ?_, d, hd, ?_⟩
        · exact List.forall_mem_cons.mpr ⟨⟨t, (readToken_eq_ok_iff hv).mp ht⟩, hbefore⟩
        · rw [List.length_cons, Nat.add_right_comm, Nat.add_assoc]
      · cases h

end Tokens

/-! ### Summaries that are refused -/

/-- Counts are refused for the first that is none, if those before it add up. -/
theorem exists_of_readCounts_eq_failure {counts : List (String × Value)}
    (hfit : ∀ m ∈ counts, m.2.Fit) {e : Violation}
    (h : readCounts ∅ counts = .error (.failure e)) :
    ∃ before name w after, counts = before ++ (name, w) :: after ∧ (∀ m ∈ before, IsCount m.2) ∧
      (∀ kind, reportedCount kind before < countRange) ∧ ¬ IsCount w ∧
      e = (Demand.count name).violation := by
  obtain ⟨before, name, w, after, reported, rfl, hread, hstop⟩ := exists_of_readCounts_eq_error h
  obtain ⟨hbefore, hw, -⟩ := List.forall_mem_append.mp hfit |>.imp_right List.forall_mem_cons.mp
  obtain ⟨hcounts, hsums⟩ := (exists_readCounts_empty_iff hbefore).mp ⟨reported, hread⟩
  refine ⟨before, name, w, after, rfl, hcounts, hsums, ?_, ?_⟩
  all_goals rcases hstop with ⟨hnone, hstop⟩ | ⟨-, hstop, -⟩ <;> cases hstop
  · rintro ⟨n, hn⟩
    rw [(nat?_eq_some_iff_of_fit hw).mpr hn] at hnone
    cases hnone
  · rfl

/-- Reading breaks off behind counts that do not add up. -/
theorem exists_of_readCounts_eq_fault {counts : List (String × Value)}
    (hfit : ∀ m ∈ counts, m.2.Fit) {fault : ArithmeticFault}
    (h : readCounts ∅ counts = .error (.fault fault)) :
    ∃ front after, counts = front ++ after ∧ (∀ m ∈ front, IsCount m.2) ∧
      ∃ kind, countRange ≤ reportedCount kind front := by
  obtain ⟨before, name, w, after, reported, rfl, hread, hstop⟩ := exists_of_readCounts_eq_error h
  obtain ⟨hbefore, hw, -⟩ := List.forall_mem_append.mp hfit |>.imp_right List.forall_mem_cons.mp
  obtain ⟨hcounts, -⟩ := (exists_readCounts_empty_iff hbefore).mp ⟨reported, hread⟩
  rcases hstop with ⟨-, hstop⟩ | ⟨⟨n, hn⟩, -, kind, hsum⟩
  · cases hstop
  · have hzero : (∅ : Summary).count kind = 0 := rfl
    rw [hzero, Nat.zero_add] at hsum
    refine ⟨before ++ [(name, w)], after, by simp, ?_, kind, hsum⟩
    exact List.forall_mem_append.mpr
      ⟨hcounts, List.forall_mem_singleton.mpr ⟨n, (nat?_eq_some_iff_of_fit hw).mp hn⟩⟩

/-- In an ordered list what has a smaller key stands before. -/
theorem mem_before_of_lt {before after : List (String × Value)} {name name' : String} {w w' : Value}
    (h : Keyed.Ordered (before ++ (name, w) :: after))
    (hmem : (name', w') ∈ before ++ (name, w) :: after) (hlt : name' < name) :
    (name', w') ∈ before := by
  rcases List.mem_append.mp hmem with hmem | hmem
  · exact hmem
  · have htail : Keyed.Ordered ((name, w) :: after) := (List.pairwise_append.mp h).2.1
    rcases List.mem_cons.mp hmem with heq | hmem
    · cases heq
      exact absurd hlt (String.lt_irrefl _)
    · have hgt : name < name' := htail.head_lt _ hmem
      exact absurd (String.lt_trans hlt hgt) (String.lt_irrefl _)

/-- A summary is refused for its form or for one of its counts, unless the counts overflow first. -/
theorem readSummary_eq_error {members : List (String × Value)} {tokens : List Token}
    {stop : Stop Violation} (h : readSummary members tokens = .error stop) :
    (¬ Demand.summaryObject.Met (.obj members) ∧
        stop = .failure Demand.summaryObject.violation) ∨
      ∃ counts, member? members "summary" = some (.obj counts) ∧
        readCounts ∅ counts = .error stop := by
  unfold readSummary at h
  dsimp only at h
  split at h
  · cases h
  · cases h
  · next counts hcounts =>
    rcases bind_eq_error_iff.mp h with h | ⟨reported, -, h⟩
    · exact .inr ⟨counts, hcounts, h⟩
    · cases h
  · next w hnull hobj hw =>
    cases h
    refine .inl ⟨fun hmet => ?_, rfl⟩
    rcases hmet w hw with rfl | ⟨counts, rfl⟩
    · exact hnull rfl
    · exact hobj counts rfl

/-- The counts that stand before one of an ordered table are those with smaller names. -/
theorem filter_lt_eq {before after : List (String × Value)} {name : String} {w : Value}
    (h : Keyed.Ordered (before ++ (name, w) :: after)) :
    (before ++ (name, w) :: after).filter (·.1 < name) = before := by
  have hbefore : before.filter (·.1 < name) = before := by
    rw [List.filter_eq_self]
    intro m hm
    exact decide_eq_true ((List.pairwise_append.mp h).2.2 m hm _ List.mem_cons_self)
  have hafter : ((name, w) :: after).filter (·.1 < name) = [] := by
    rw [List.filter_eq_nil_iff]
    intro m hm
    rw [decide_eq_true_eq]
    rcases List.mem_cons.mp hm with rfl | hm
    · exact String.lt_irrefl _
    · have htail : Keyed.Ordered ((name, w) :: after) := (List.pairwise_append.mp h).2.1
      exact fun hlt => absurd (String.lt_trans hlt (htail.head_lt _ hm)) (String.lt_irrefl _)
  rw [List.filter_append, hbefore, hafter, List.append_nil]

/-! ### Payloads that are refused -/

namespace Demand

variable {v : Value} {items : List Value} {tokens : List Token}

/-- Of a list of tokens nothing is demanded before its items. -/
theorem met_of_items (h : part? v "tokens" = some (.arr items)) {d : Demand}
    (hd : d.ctorIdx ≤ tokensArray.ctorIdx) : d.Met v := by
  cases d with
  | isObject =>
    cases v with
    | obj members => rfl
    | _ => cases h
  | hasTokens => exact Option.isSome_of_eq_some h
  | tokensArray => exact ⟨items, h⟩
  | _ => simp [Demand.ctorIdx] at hd

/-- Where all tokens are valid, the demands up to the summary are met. -/
theorem met_of_tokens (h : part? v "tokens" = some (.arr items))
    (htokens : List.Forall₂ IsToken items tokens) {d : Demand}
    (hd : d.ctorIdx < summaryObject.ctorIdx) : d.Met v := by
  cases d with
  | token i d =>
    intro item hitem
    rw [Option.mem_def, item?_eq h] at hitem
    obtain ⟨t, -, ht⟩ := exists_token_of_mem htokens item (List.mem_of_getElem? hitem)
    exact TokenDemand.forall_met_iff.mpr ⟨t, ht⟩ d
  | isObject | hasTokens | tokensArray => exact met_of_items h (by decide)
  | _ => simp [Demand.ctorIdx] at hd

/-- Behind tokens, the first item that is none is the one that counts. -/
theorem isFirst_token {before after : List Value} {item : Value} {td : TokenDemand}
    (h : part? v "tokens" = some (.arr (before ++ item :: after)))
    (hbefore : ∀ w ∈ before, ∃ t, IsToken w t) (htd : td.IsFirst item) :
    (token before.length td).IsFirst v := by
  constructor
  · intro hmet
    refine htd.unmet (hmet item ?_)
    rw [Option.mem_def, item?_eq h, List.getElem?_append_right (Nat.le_refl _), Nat.sub_self]
    rfl
  · intro d' hd'
    cases hd' with
    | part hlt => exact met_of_items h (Nat.le_of_lt_succ hlt)
    -- Earlier items are tokens, and meet all that is asked of one.
    | token hlt =>
      intro w hw
      rw [Option.mem_def, item?_eq h, List.getElem?_append_left hlt] at hw
      exact TokenDemand.forall_met_iff.mpr (hbefore w (List.mem_of_getElem? hw)) _
    | sameToken hlt =>
      intro w hw
      rw [Option.mem_def, item?_eq h, List.getElem?_append_right (Nat.le_refl _), Nat.sub_self,
        List.getElem?_cons_zero, Option.some.injEq] at hw
      exact hw ▸ htd.met _ hlt

/-- Behind tokens, the first count that is none is the one that counts: in an ordered table no
smaller name stands behind it. -/
theorem isFirst_count {before after : List (String × Value)} {name : String} {w : Value}
    (h : part? v "tokens" = some (.arr items)) (htokens : List.Forall₂ IsToken items tokens)
    (hcounts : part? v "summary" = some (.obj (before ++ (name, w) :: after)))
    (hordered : Keyed.Ordered (before ++ (name, w) :: after))
    (hbefore : ∀ m ∈ before, IsCount m.2) (hw : ¬ IsCount w) : (count name).IsFirst v := by
  constructor
  · intro hmet
    exact hw (hmet _ w hcounts (Keyed.find?_of_mem hordered.nodup_keys (by simp)))
  · intro d' hd'
    cases hd' with
    -- The demands on tokens are met, and so is that the summary is an object.
    | part hlt =>
      rcases Nat.lt_succ_iff_lt_or_eq.mp hlt with hlt | heq
      · exact met_of_tokens h htokens hlt
      · cases d' with
        | summaryObject =>
          intro x hx
          rw [hcounts, Option.mem_def, Option.some.injEq] at hx
          exact .inr ⟨_, hx.symm⟩
        | _ => simp [Demand.ctorIdx] at heq
    -- Names before this one stand before it, where all counts are in order.
    | count hlt =>
      intro counts x hx hfind
      rw [hcounts, Option.some.injEq, Value.obj.injEq] at hx
      subst hx
      exact hbefore _ (mem_before_of_lt hordered (Keyed.mem_of_find? hfind) hlt)

/-- Every demand is come to that is none on a count. -/
theorem reached_of_ne_count {d : Demand} (hd : ∀ name, d ≠ count name) : d.Reached v :=
  fun name _ heq => absurd heq (hd name)

/-- Whatever is refused is refused for the first demand that it does not meet. -/
theorem exists_isFirst_of_accept (hfit : v.Fit) (htabled : v.Tabled) {e : Violation}
    (h : accept v = .error (.failure e)) :
    ∃ d : Demand, d.IsFirst v ∧ d.Reached v ∧ e = d.violation := by
  unfold accept at h
  split at h
  · next hnone =>
    cases h
    refine ⟨.isObject, ⟨by simp [Met, hnone], ?_⟩, reached_of_ne_count nofun, rfl⟩
    rintro d' (hlt | _)
    exact absurd hlt (Nat.not_lt_zero _)
  · next members hmembers =>
    cases v with
    | obj members =>
      cases hmembers
      split at h
      · next items hitems =>
        have hpart : part? (.obj members) "tokens" = some (.arr items) := hitems
        have hfititems := fit_of_items hfit hitems
        -- The first of the tokens that is refused, by its first demand that is not met.
        rcases bind_eq_error_iff.mp h with htokens | ⟨tokens, htokens, h⟩
        · obtain ⟨e, htokens, heq⟩ := mapError_eq_error_iff.mp htokens
          cases heq
          obtain ⟨before, item, after, rfl, hbefore, td, htd, rfl⟩ :=
            exists_isFirst_of_readTokens hfititems htokens
          refine ⟨_, isFirst_token hitems hbefore htd, reached_of_ne_count nofun, ?_⟩
          rw [Nat.zero_add]
          rfl
        have htokens := (readTokens_eq_ok_iff hfititems 0).mp (mapError_eq_ok_iff.mp htokens)
        -- All tokens are in order, so it is the summary that is refused.
        rcases bind_eq_error_iff.mp h with hsummary | ⟨_, -, h⟩
        · rcases readSummary_eq_error hsummary with ⟨hunmet, heq⟩ | ⟨counts, hcounts, hread⟩
          · cases heq
            refine ⟨.summaryObject, ⟨hunmet, ?_⟩, reached_of_ne_count nofun, rfl⟩
            rintro d' (hlt | _)
            exact met_of_tokens hpart htokens hlt
          · have hordered := (htabled.of_find? hcounts).ordered
            obtain ⟨before, name, w, after, rfl, hbefore, hsums, hw, rfl⟩ :=
              exists_of_readCounts_eq_failure (fit_of_counts hfit hcounts) hread
            refine ⟨_, isFirst_count hitems htokens hcounts hordered hbefore hw, ?_, rfl⟩
            rintro name' counts' heq hcounts'
            cases heq
            cases hcounts.symm.trans hcounts'
            rw [filter_lt_eq hordered]
            exact hsums
        · cases h
      -- There are tokens, but not in an array.
      · next w harray hw =>
        cases h
        refine ⟨.tokensArray, ⟨?_, ?_⟩, reached_of_ne_count nofun, rfl⟩
        · rintro ⟨items, hitems⟩
          exact harray items (Option.some.inj (hw.symm.trans hitems))
        · rintro d' (hlt | _)
          cases d' with
          | isObject => rfl
          | hasTokens => exact Option.isSome_of_eq_some hw
          | _ => simp [Demand.ctorIdx] at hlt
      · next hnone =>
        cases h
        refine ⟨.hasTokens, ⟨by simp [Met, hnone], ?_⟩, reached_of_ne_count nofun, rfl⟩
        rintro d' (hlt | _)
        cases d' with
        | isObject => rfl
        | _ => simp [Demand.ctorIdx] at hlt
    | _ => cases hmembers

/-- What is accepted meets all demands. -/
theorem met_of_accept (hfit : v.Fit) {a : Accepted} (h : accept v = .ok a) (d : Demand) :
    d.Met v := by
  obtain @⟨members, items, _, hitems, htokens, hsummary⟩ :=
    ((accept_iff_isPayload hfit _).mp ⟨a, h, rfl⟩).1
  have hpart : part? (.obj members) "tokens" = some (.arr items) := hitems
  cases d with
  | token i td => exact met_of_tokens hpart htokens (Nat.lt_succ_self _)
  | summaryObject =>
    intro w hw
    rw [part?_obj, Option.mem_def] at hw
    rw [hw] at hsummary
    cases hsummary with
    | null => exact .inl rfl
    | counts _ => exact .inr ⟨_, rfl⟩
  | count name =>
    intro counts w hcounts hw
    rw [part?_obj] at hcounts
    rw [hcounts] at hsummary
    cases hsummary with
    | counts hall => exact hall _ (Keyed.mem_of_find? hw)
  | _ => exact met_of_items hpart (by decide)

/-- Reading breaks off before it comes to the first demand that is not met, if there is one. -/
theorem not_reached_of_fault (hfit : v.Fit) (htabled : v.Tabled) {fault : ArithmeticFault}
    (h : accept v = .error (.fault fault)) {d : Demand} (hd : ¬ d.Met v) : ¬ d.Reached v := by
  obtain ⟨members, items, tokens, counts, rfl, hitems, htokens, hcounts, hread⟩ :=
    exists_counts_of_fault h
  have hpart : part? (.obj members) "tokens" = some (.arr items) := hitems
  have htokens := (readTokens_eq_ok_iff (fit_of_items hfit hitems) 0).mp htokens
  obtain ⟨front, after, rfl, hfront, kind, hsum⟩ :=
    exists_of_readCounts_eq_fault (fit_of_counts hfit hcounts) hread
  have hordered := (htabled.of_find? hcounts).ordered
  cases d with
  | count name =>
    -- the count that is none stands behind those that do not add up
    intro hreached
    refine hd fun counts' w hcounts' hw => ?_
    rw [part?_obj] at hcounts'
    cases hcounts.symm.trans hcounts'
    rcases List.mem_append.mp (Keyed.mem_of_find? hw) with hmem | hmem
    · exact hfront _ hmem
    · have hsmaller : front.filter (·.1 < name) = front := by
        rw [List.filter_eq_self]
        intro m hm
        exact decide_eq_true ((List.pairwise_append.mp hordered).2.2 m hm _ hmem)
      have hless := hreached name (front ++ after) rfl hcounts kind
      rw [List.filter_append, hsmaller, reportedCount_append] at hless
      omega
  | summaryObject =>
    refine absurd (fun w hw => ?_) hd
    rw [part?_obj, hcounts] at hw
    cases hw
    exact .inr ⟨_, rfl⟩
  | token i td => exact absurd (met_of_tokens hpart htokens (Nat.lt_succ_self _)) hd
  | _ => exact absurd (met_of_items hpart (by decide)) hd

end Demand

/-- What is demanded of an item of the list is met if there is no such item. -/
theorem exists_item?_of_unmet {v : Value} {i : Nat} {td : TokenDemand}
    (h : ¬ (Demand.token i td).Met v) : ∃ item, item? v i = some item := by
  cases hitem : item? v i with
  | some item => exact ⟨item, rfl⟩
  | none => exact absurd (fun item hmem => by rw [hitem] at hmem; cases hmem) h

/-- Where there is an item, there are all before it. -/
theorem exists_item?_of_lt {v : Value} {i j : Nat} (hj : j < i)
    (h : ∃ item, item? v i = some item) : ∃ item, item? v j = some item := by
  obtain ⟨item, hitem⟩ := h
  unfold item? at hitem ⊢
  split at hitem
  · obtain ⟨hi, -⟩ := List.getElem?_eq_some_iff.mp hitem
    exact ⟨_, List.getElem?_eq_getElem (Nat.lt_trans hj hi)⟩
  · cases hitem

/-- A payload is refused with the first demand that it does not meet, if reading comes to it. That
something is missing is said of the list of tokens, a type or a value that is not there, and of
nothing else; and where an item of the list is named, those before it are tokens. -/
theorem accept_eq_error_iff {v : Value} (hfit : v.Fit) (htabled : v.Tabled) {e : Violation} :
    accept v = .error (.failure e) ↔ ∃ d : Demand, d.IsFirst v ∧ d.Reached v ∧ e = d.violation ∧
      (e.kind = if d.asksPresence then .missingField else .format) ∧
      ∀ i td, d = .token i td → ∀ j < i, ∃ item t, item? v j = some item ∧ IsToken item t := by
  constructor
  · intro h
    obtain ⟨d, hd, hreached, rfl⟩ := Demand.exists_isFirst_of_accept hfit htabled h
    refine ⟨d, hd, hreached, rfl, d.kind_violation, ?_⟩
    rintro i td rfl j hj
    obtain ⟨item, hitem⟩ := exists_item?_of_lt hj (exists_item?_of_unmet hd.unmet)
    have hmet : ∀ td', TokenDemand.Met item td' := fun td' =>
      hd.met (.token j td') (.token hj) item hitem
    obtain ⟨t, ht⟩ := TokenDemand.forall_met_iff.mp hmet
    exact ⟨item, t, hitem, ht⟩
  · rintro ⟨d, hd, hreached, rfl, -⟩
    -- A demand that is not met is refused, and the first of them is unique.
    cases haccept : accept v with
    | ok a => exact absurd (Demand.met_of_accept hfit haccept d) hd.unmet
    | error stop =>
      cases stop with
      | failure e =>
        obtain ⟨d', hd', -, rfl⟩ := Demand.exists_isFirst_of_accept hfit htabled haccept
        rw [hd.unique hd']
      | fault x => exact absurd hreached (Demand.not_reached_of_fault hfit htabled haccept hd.unmet)

/-- Objects of a document are in the order of their names. -/
theorem tabled_of_parse {text : String} {v : Value} (h : parse text = .ok v) : v.Tabled := by
  obtain ⟨w, -, -, -, rfl⟩ := parse_ok_iff.mp h
  exact Value.tabled_settled w

/-- A payload whose second item has a blank type, no value and a line that is none, with counts that
are none either. -/
def manyFaults : String :=
  "\x7b\"summary\": \x7b\"b\": -1, \"a\": 1.5\x7d," ++
    " \"tokens\": [\x7b\"type\": \"word\", \"value\": \"\"\x7d, \x7b\"type\": \" \", \"line\": 0\x7d]\x7d"

/-- Of all that is wrong with the payload, the blank type comes first. -/
theorem accept_eq_error_blankType : ∃ v, parse manyFaults = .ok v ∧ v.Fit ∧ v.Tabled ∧
    accept v = .error (.failure
      (.malformed "tokens[1].type" "'type' must be a non-empty string")) ∧
    ∃ d : Demand, d.IsFirst v ∧ d.violation.field = some "tokens[1].type" := by
  have hrefused : (parse manyFaults).toOption.any (fun v => decide (accept v = .error (.failure
      (.malformed "tokens[1].type" "'type' must be a non-empty string")))) = true := by
    decide +kernel
  obtain ⟨v, hv, hrefused⟩ := exists_ok_of_any hrefused
  have hrefused := of_decide_eq_true hrefused
  obtain ⟨d, hd, -, hviolation, -⟩ :=
    (accept_eq_error_iff (fit_of_parse hv) (tabled_of_parse hv)).mp hrefused
  exact ⟨v, hv, fit_of_parse hv, tabled_of_parse hv, hrefused, d, hd, by rw [← hviolation]; rfl⟩

end PolyLex.Remote
