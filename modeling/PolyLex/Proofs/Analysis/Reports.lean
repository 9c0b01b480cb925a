import PolyLex.Analysis.Call
import PolyLex.Proofs.Remote.Acceptance
import PolyLex.Proofs.Scan.Coverage

/-!
# The report a call ends with

There are two kinds of report. The scanner's holds the scan of the source and nothing else, because
no scan fails the check (`check_scan`); the remote service's holds what was accepted. Which one a
call ends with is settled by its failure: a reply that is not there in time (`Call.Fails.late`),
or one that leads to no report (`ReplyFails`). A call has no report at all if its reply makes
reading break off (`ReplyFaults`), which takes counts that do not add up (`ReplyFaults.not_addsUp`).

* `reply_cases` — a reply fails, holds a listing or breaks off;
* `Call.conclude_of_fails`, `Call.conclude_cases` — a failure leaves the scan and itself in the
  report, and a call without one is answered by the service, if at all.
-/

namespace PolyLex.Analysis

/-! ### The scanner's reports -/

/-- No token of a scan lacks its place, so the check of listings finds nothing. -/
theorem firstIncomplete?_scan (l : Language) (source : String) :
    Listing.firstIncomplete? (l.profile.scan source).tokens = none := by
  rw [Listing.firstIncomplete?, List.findIdx?_eq_none_iff, Profile.tokens_scan]
  intro t ht
  obtain ⟨x, hx, rfl⟩ := List.mem_map.mp ht
  have hne : x.lexeme ≠ [] :=
    Scan.lexeme_ne_nil l.wellMarked_profile.closersNonempty hx
  have hlexeme : x.token.lexeme.isEmpty = false := by
    rw [String.isEmpty_eq_false_iff]
    intro hempty
    exact hne (String.ofList_eq_empty_iff.mp hempty)
  rw [hlexeme]
  rfl

/-- No scan fails the check. -/
theorem check_scan (l : Language) (source : String) :
    (l.profile.scan source).check = .ok () := by
  have hsummary : ¬ (l.profile.scan source).summary ≠
      Summary.ofTokens (l.profile.scan source).tokens := fun hne => hne rfl
  rw [Listing.check, if_neg hsummary, firstIncomplete?_scan]

/-- The report of the local scanner is the scan, and it is always consistent. -/
theorem scanReport_eq (source : String) (l : Language) (failure : Option Error) :
    scanReport source l failure = ⟨l.profile.scan source, .scanner, true, failure⟩ := by
  rw [scanReport, check_scan]

/-! ### Replies -/

/-- Why a reply leads to no report: the service refused, or its text holds no JSON document, or the
document is no listing. -/
inductive ReplyFails : Except Error String → Error → Prop
  | refused (e : Error) : ReplyFails (.error e) e
  | unreadable {content : String} {e : Error} :
      Remote.extract content = .error e → ReplyFails (.ok content) e
  | unacceptable {content : String} {value : Json.Value} {violation : Violation} :
      Remote.extract content = .ok value → Remote.accept value = .error (.failure violation) →
      ReplyFails (.ok content) (.violation violation)

/-- A reply whose document is a listing. -/
inductive ReplyHolds : Except Error String → Remote.Accepted → Prop
  | intro {content : String} {value : Json.Value} {accepted : Remote.Accepted} :
      Remote.extract content = .ok value → Remote.accept value = .ok accepted →
      ReplyHolds (.ok content) accepted

/-- A reply in whose document reading breaks off. -/
inductive ReplyFaults : Except Error String → ArithmeticFault → Prop
  | intro {content : String} {value : Json.Value} {fault : ArithmeticFault} :
      Remote.extract content = .ok value → Remote.accept value = .error (.fault fault) →
      ReplyFaults (.ok content) fault

/-- The counts that a reply reports come to machine words when those of one kind are added up. A
reply without a document reports none. -/
def ReplyAddsUp (reply : Except Error String) : Prop :=
  ∀ content value, reply = .ok content → Remote.extract content = .ok value → Remote.AddsUp value

/-- Where there is no payload there are no counts to add up. -/
theorem replyAddsUp_error (e : Error) : ReplyAddsUp (.error e) :=
  fun _ _ h => by cases h

/-- A reply that breaks off has counts that do not add up. -/
theorem ReplyFaults.not_addsUp {reply : Except Error String} {fault : ArithmeticFault}
    (h : ReplyFaults reply fault) : ¬ ReplyAddsUp reply := by
  cases h with
  | intro hextract haccept =>
    intro hadds
    exact Remote.not_addsUp_of_fault haccept (hadds _ _ rfl hextract)

/-- A reply that fails is a failure, with the cause that it has. -/
theorem readReply_of_fails {reply : Except Error String} {e : Error} (h : ReplyFails reply e)
    (name : String) : readReply name reply = .error (.failure e) := by
  cases h with
  | refused => rfl
  | unreadable hextract =>
    simp only [readReply, bind, Except.bind, Except.mapError, hextract]
  | unacceptable hextract haccept =>
    simp only [readReply, bind, Except.bind, Except.mapError, hextract, haccept, Stop.map]

/-- A reply that holds a listing is the report of that listing, with its flag. -/
theorem readReply_of_holds {reply : Except Error String} {accepted : Remote.Accepted}
    (h : ReplyHolds reply accepted) (name : String) :
    readReply name reply = .ok ⟨accepted.listing, .remote name, accepted.consistent, none⟩ := by
  cases h with
  | intro hextract haccept =>
    simp only [readReply, bind, Except.bind, hextract, haccept, Except.mapError]
    rfl

/-- A reply whose counts overflow is no report and no failure. -/
theorem readReply_of_faults {reply : Except Error String} {fault : ArithmeticFault}
    (h : ReplyFaults reply fault) (name : String) :
    readReply name reply = .error (.fault fault) := by
  cases h with
  | intro hextract haccept =>
    simp only [readReply, bind, Except.bind, Except.mapError, hextract, haccept, Stop.map]

/-- A reply fails, holds a listing or makes reading break off. -/
theorem reply_cases (reply : Except Error String) :
    (∃ e, ReplyFails reply e) ∨ (∃ accepted, ReplyHolds reply accepted) ∨
      ∃ fault, ReplyFaults reply fault := by
  cases reply with
  | error e => exact .inl ⟨e, .refused e⟩
  | ok content =>
    cases hextract : Remote.extract content with
    | error e => exact .inl ⟨e, .unreadable hextract⟩
    | ok value =>
      cases haccept : Remote.accept value with
      | ok accepted => exact .inr (.inl ⟨accepted, .intro hextract haccept⟩)
      | error stop =>
        cases stop with
        | failure violation => exact .inl ⟨_, .unacceptable hextract haccept⟩
        | fault fault => exact .inr (.inr ⟨fault, .intro hextract haccept⟩)

theorem conclude_of_fails {reply : Except Error String} {e : Error} (h : ReplyFails reply e)
    (name source : String) (l : Language) : conclude name source l reply =
      .ok ⟨l.profile.scan source, .scanner, true, some e⟩ := by
  rw [conclude, readReply_of_fails h, ← scanReport_eq]

/-- A listing that is accepted is the report. -/
theorem conclude_of_holds {reply : Except Error String} {accepted : Remote.Accepted}
    (h : ReplyHolds reply accepted) (name source : String) (l : Language) :
    conclude name source l reply =
      .ok ⟨accepted.listing, .remote name, accepted.consistent, none⟩ := by
  rw [conclude, readReply_of_holds h]

theorem conclude_of_faults {reply : Except Error String} {fault : ArithmeticFault}
    (h : ReplyFaults reply fault) (name source : String) (l : Language) :
    conclude name source l reply = .error fault := by
  rw [conclude, readReply_of_faults h]

/-! ### Calls -/

/-- A report on a source: its scan, or what the service said about it. -/
inductive Report.Regular (source : String) (l : Language) : Report → Prop
  | scanned (failure : Option Error) :
      Regular source l ⟨l.profile.scan source, .scanner, true, failure⟩
  | remote (name : String) (accepted : Remote.Accepted) :
      Regular source l ⟨accepted.listing, .remote name, accepted.consistent, none⟩

namespace Call

/-- Why a call that ends now is not answered by the service. -/
inductive Fails (c : Call) (now : Nat) : Error → Prop
  | late : c.isReady now = false → Fails c now c.timeout
  | reply {e : Error} : c.isReady now = true → ReplyFails c.conduct.reply e → Fails c now e

/-- A call that fails is answered by the scanner, with the failure as the reason. -/
theorem conclude_of_fails {c : Call} {now : Nat} {e : Error} (h : c.Fails now e) :
    c.conclude now = .ok ⟨c.language.profile.scan c.source, .scanner, true, some e⟩ := by
  cases h with
  | late hlate =>
    rw [conclude, hlate, if_neg Bool.false_ne_true, scanReport_eq]
  | reply hready hfails =>
    rw [conclude, if_pos hready, Analysis.conclude_of_fails hfails]

/-- A call fails, or is answered by what the service's reply holds, or breaks off in it. -/
theorem conclude_cases (c : Call) (now : Nat) :
    (∃ e, c.Fails now e) ∨
    (∃ accepted, ReplyHolds c.conduct.reply accepted ∧ c.conclude now =
      .ok ⟨accepted.listing, .remote c.gateway.name, accepted.consistent, none⟩) ∨
    ∃ fault, ReplyFaults c.conduct.reply fault ∧ c.conclude now = .error fault := by
  cases hready : c.isReady now with
  | false => exact .inl ⟨_, .late hready⟩
  | true =>
    have hconclude : c.conclude now =
        Analysis.conclude c.gateway.name c.source c.language c.conduct.reply := by
      rw [conclude, if_pos hready]
    rw [hconclude]
    rcases reply_cases c.conduct.reply with ⟨e, hfails⟩ | ⟨accepted, hholds⟩ | ⟨fault, hfaults⟩
    · exact .inl ⟨e, .reply hready hfails⟩
    · exact .inr (.inl ⟨accepted, hholds, conclude_of_holds hholds ..⟩)
    · exact .inr (.inr ⟨fault, hfaults, conclude_of_faults hfaults ..⟩)

/-- What a call concludes is a report on its own source. -/
theorem regular_of_conclude {c : Call} {now : Nat} {report : Report}
    (h : c.conclude now = .ok report) : report.Regular c.source c.language := by
  rcases c.conclude_cases now with ⟨e, hfails⟩ | ⟨accepted, -, hremote⟩ | ⟨fault, -, hfault⟩
  · rw [conclude_of_fails hfails] at h
    cases h
    exact .scanned (some e)
  · rw [hremote] at h
    cases h
    exact .remote c.gateway.name accepted
  · rw [hfault] at h
    cases h

/-- A call whose reply adds up ends with a report: the scanner's, or the service's. -/
theorem exists_report_of_addsUp {c : Call} (h : ReplyAddsUp c.conduct.reply) (now : Nat) :
    ∃ report, c.conclude now = .ok report ∧
      (report.origin = .scanner ∨ report.origin = .remote c.gateway.name) := by
  rcases c.conclude_cases now with ⟨e, hfails⟩ | ⟨accepted, -, hremote⟩ | ⟨fault, hfaults, -⟩
  · exact ⟨_, conclude_of_fails hfails, .inl rfl⟩
  · exact ⟨_, hremote, .inr rfl⟩
  · exact absurd h hfaults.not_addsUp

end Call

end PolyLex.Analysis
