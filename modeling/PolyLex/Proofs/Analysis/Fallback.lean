import PolyLex.Proofs.Analysis.Reports
import PolyLex.Proofs.Analysis.SingleFlight

/-!
# There is always a report

Past its preconditions an analysis cannot fail, whatever the remote service does, as long as the
counts that it reports add up: `analyze_answered` says what each request is answered, and that no
step of a session ever hands out a degraded report. What stands in for the service is the scanner
alone: `fallback_traceless` compares an analyzer whose service failed with one that has none, and
finds that their reports differ in the reason and in nothing else.

Both rest on what a report can be (`report_of_finished`), which follows the steps of a session down
to the calls that end in them.
-/

namespace PolyLex.Analysis

/-- Why the service does not answer a call that runs to its end: it keeps silent, or it takes too
long, or its reply leads to no report. -/
inductive Conduct.Fails (g : Gateway) (d : Conduct) : Error → Prop
  | silent : d.gated = true → Fails g d (.timeout "remote analysis" g.timeout)
  | late : g.timeout < d.delay → Fails g d (.timeout "remote analysis" g.timeout)
  | reply {e : Error} : d.gated = false → d.delay ≤ g.timeout → ReplyFails d.reply e →
      Fails g d e

/-- The call that a request for a known language makes. -/
def Request.call (request : Request) (g : Gateway) (l : Language) (now : Nat) : Call where
  gateway := g
  source := request.source
  language := l
  conduct := request.conduct
  startedAt := now

/-! ### Calls that run to their end -/

namespace Call

/-- What a call ends with that is asked for now and then left alone until something is due. -/
def final (c : Call) (now : Nat) : Except ArithmeticFault Report :=
  (c.ask now).conclude ((c.ask now).wake now)

@[simp] theorem gateway_ask (now : Nat) (c : Call) : (c.ask now).gateway = c.gateway := by
  unfold ask
  split <;> rfl

@[simp] theorem source_ask (now : Nat) (c : Call) : (c.ask now).source = c.source := by
  unfold ask
  split <;> rfl

@[simp] theorem language_ask (now : Nat) (c : Call) : (c.ask now).language = c.language := by
  unfold ask
  split <;> rfl

@[simp] theorem conduct_ask (now : Nat) (c : Call) : (c.ask now).conduct = c.conduct := by
  unfold ask
  split <;> rfl

/-- The reply to a new call is there when something is due, just if the service works on it and is
done by the deadline. -/
theorem isReady_wake (request : Request) (g : Gateway) (l : Language) (now : Nat) :
    ((request.call g l now).ask now).isReady (((request.call g l now).ask now).wake now) =
      (!request.conduct.gated && decide (request.conduct.delay ≤ g.timeout)) := by
  generalize hask : (request.call g l now).ask now = asked
  cases hgated : request.conduct.gated with
  | true =>
    have hasked : asked = request.call g l now := by
      rw [← hask]
      simp [ask, isOpen, Request.call, hgated]
    rw [hasked]
    rfl
  | false =>
    have hasked : asked =
        { request.call g l now with dueAt := some (now + request.conduct.delay) } := by
      rw [← hask]
      simp [ask, isOpen, Request.call, hgated]
    have hdeadline : asked.deadline = now + g.timeout := by
      rw [hasked]
      rfl
    -- the clock goes on to the deadline or to the reply, whichever is nearer
    rw [wake, hdeadline, hasked, Bool.not_false, Bool.true_and]
    show decide (now + request.conduct.delay ≤
      max now (min (now + g.timeout) (now + request.conduct.delay))) = _
    rw [decide_eq_decide]
    omega

/-- A call that runs to its end fails for the reasons that its service's conduct gives. -/
theorem fails_final_iff (request : Request) (g : Gateway) (l : Language) (now : Nat) (e : Error) :
    ((request.call g l now).ask now).Fails (((request.call g l now).ask now).wake now) e ↔
      request.conduct.Fails g e := by
  have hready := isReady_wake request g l now
  have htimeout : ((request.call g l now).ask now).timeout =
      .timeout "remote analysis" g.timeout := by
    rw [timeout, gateway_ask]
    rfl
  have hconduct : ((request.call g l now).ask now).conduct = request.conduct :=
    conduct_ask now (request.call g l now)
  constructor
  · rintro (hlate | ⟨hdone, hfails⟩)
    · -- no reply when something is due: there is none at all, or it comes too late
      rw [htimeout]
      rw [hlate, eq_comm, Bool.and_eq_false_iff] at hready
      rcases hready with hgated | hdelay
      · exact .silent (by simpa using hgated)
      · exact .late (Nat.not_le.mp (of_decide_eq_false hdelay))
    · rw [hconduct] at hfails
      rw [hdone, eq_comm, Bool.and_eq_true, decide_eq_true_eq] at hready
      exact .reply (by simpa using hready.1) hready.2 hfails
  · rintro (hgated | hlate | ⟨hgated, hdelay, hfails⟩)
    · rw [hgated] at hready
      rw [← htimeout]
      exact .late hready
    · rw [decide_eq_false (Nat.not_le.mpr hlate), Bool.and_false] at hready
      rw [← htimeout]
      exact .late hready
    · rw [hgated, decide_eq_true hdelay] at hready
      rw [← hconduct] at hfails
      exact .reply hready hfails

end Call

namespace Session

/-! ### Requests that are let in -/

section Request

variable {s : Session} {n : Nat} {a : Analyzer} {request : Request} {l : Language}

/-- An analyzer at rest admits every source that is not blank, in every language. -/
theorem admission_idle {source : String} (hblank : Text.isBlankText source = false)
    (l : Language) : admission false source l.id = .ok l := by
  rw [admission, hblank, Language.ofId?_id]
  rfl

/-- An idle analyzer without a service reports at once. -/
theorem analyze_local (ha : s.analyzers[n]? = some a) (hidle : a.busy = false)
    (hlocal : a.gateway = none) (hblank : Text.isBlankText request.source = false)
    (hl : l.id = request.language) :
    (s.analyze n request).2 =
      .finished ⟨l.profile.scan request.source, .scanner, true, none⟩ := by
  have henter : s.enter n request = .ok (s, .report (scanReport request.source l none)) := by
    simp only [enter, ha, hidle, ← hl, admission_idle hblank, hlocal]
  rw [analyze, henter, scanReport_eq]

/-- An idle analyzer with a service comes to the end of the call. -/
theorem analyze_remote {g : Gateway} (ha : s.analyzers[n]? = some a) (hidle : a.busy = false)
    (hremote : a.gateway = some g) (hblank : Text.isBlankText request.source = false)
    (hl : l.id = request.language) :
    (s.analyze n request).2 = .ofEnding ((request.call g l s.clock).final s.clock) := by
  have henter : s.enter n request = .ok (s.letIn n, .call (request.call g l s.clock)) := by
    simp only [enter, ha, hidle, ← hl, admission_idle hblank, hremote]
    rfl
  rw [analyze, henter]
  rfl

end Request

/-! ### Steps that end in a report -/

/-- The source and the language that a step is about: those of its request, or of the call in the
slot it looks at. -/
def subject? (s : Session) : Step → Option (String × Language)
  | .analyze _ request => (Language.ofId? request.language).map (request.source, ·)
  | .start _ _ request => (Language.ofId? request.language).map (request.source, ·)
  | .poll slot => (s.find? slot).map fun flight => (flight.call.source, flight.call.language)
  | .release slot => (s.find? slot).map fun flight => (flight.call.source, flight.call.language)
  | _ => none

/-- A request that is let in has the scanner's report, or becomes a call. -/
theorem enter_eq_ok {s s' : Session} {n : Nat} {request : Request} {entry : Entry}
    (h : s.enter n request = .ok (s', entry)) :
    ∃ l, Language.ofId? request.language = some l ∧
      (entry = .report (scanReport request.source l none) ∨
        ∃ g, entry = .call (request.call g l s.clock)) := by
  unfold enter at h
  split at h
  · cases h
  · split at h
    · cases h
    · next l hadmission =>
      -- Admission returns the language that it has looked up.
      have hl : Language.ofId? request.language = some l := by
        unfold admission at hadmission
        split at hadmission
        · cases hadmission
        · split at hadmission
          · cases hadmission
          · next l' hl' =>
            split at hadmission
            · cases hadmission
            · cases hadmission
              exact hl'
      split at h
      · cases h
        exact ⟨l, hl, .inl rfl⟩
      · next g _ =>
        cases h
        exact ⟨l, hl, .inr ⟨g, rfl⟩⟩

/-- What ended with a report has that report. -/
theorem ofEnding_eq_finished_iff {ending : Except ArithmeticFault Report} {report : Report} :
    Outcome.ofEnding ending = .finished report ↔ ending = .ok report := by
  cases ending <;> simp [Outcome.ofEnding]

/-- A call that ends with a report reports on what it was asked about. -/
theorem finished_goOn {slot : String} {flight : Flight} {s : Session} {report : Report}
    (h : (s.goOn slot flight).2 = .finished report) :
    report.Regular flight.call.source flight.call.language := by
  have hreport : (flight.call.ask s.clock).conclude s.clock = .ok report := by
    unfold goOn Call.poll at h
    dsimp only at h
    split at h
    · next heq =>
      simp only [Prod.mk.injEq] at heq
      split at heq
      · obtain ⟨-, heq⟩ := heq
        cases heq
        exact ofEnding_eq_finished_iff.mp h
      · cases heq.2
    · cases h
  have hregular := Call.regular_of_conclude hreport
  rwa [Call.source_ask, Call.language_ask] at hregular

/-- A report that a look returns is on the source of the call in the slot. -/
theorem finished_pollWith {change : Call → Call} {slot : String} {s : Session} {report : Report}
    (h : (s.pollWith change slot).2 = .finished report) :
    ∃ flight, s.find? slot = some flight ∧
      report.Regular (change flight.call).source (change flight.call).language := by
  unfold pollWith at h
  split at h
  · next flight hfind => exact ⟨flight, hfind, finished_goOn h⟩
  · cases h

/-- A report that answers a request is on the source and in the language of the request. -/
theorem finished_request {s : Session} {t : Step} {n : Nat} {request : Request} {report : Report}
    (ht : t.request? = some (n, request)) (h : (s.step t).2 = .finished report) :
    ∃ l, Language.ofId? request.language = some l ∧ report.Regular request.source l := by
  cases henter : s.enter n request with
  | error outcome =>
    have henters := enters_enter n request s
    rw [henter] at henters
    rw [step_of_error ht henter] at h
    cases henters <;> cases h
  | ok entered =>
    obtain ⟨s', entry⟩ := entered
    obtain ⟨l, hl, rfl | ⟨g, rfl⟩⟩ := enter_eq_ok henter
    · -- without a service both kinds of request hand the scanner's report out at once
      have hreport : report = scanReport request.source l none := by
        cases t <;> cases ht
        · rw [step, analyze, henter] at h
          cases h
          rfl
        · rw [step, start, henter] at h
          cases h
          rfl
      rw [hreport, scanReport_eq]
      exact ⟨l, hl, .scanned none⟩
    · refine ⟨l, hl, ?_⟩
      cases t <;> cases ht
      · rw [step, analyze, henter] at h
        have hregular := Call.regular_of_conclude (ofEnding_eq_finished_iff.mp h)
        rwa [Call.source_ask, Call.language_ask] at hregular
      · rw [step, start, henter] at h
        exact finished_goOn h

/-- Whatever step a report comes from, it is the scan of what the step is about, or what the service
said. -/
theorem report_of_finished {s : Session} {t : Step} {report : Report}
    (h : (s.step t).2 = .finished report) :
    ∃ source l, s.subject? t = some (source, l) ∧ report.Regular source l := by
  cases t with
  | analyze n request =>
    obtain ⟨l, hl, hregular⟩ := finished_request rfl h
    exact ⟨request.source, l, by rw [subject?, hl]; rfl, hregular⟩
  | start slot n request =>
    obtain ⟨l, hl, hregular⟩ := finished_request rfl h
    exact ⟨request.source, l, by rw [subject?, hl]; rfl, hregular⟩
  | poll slot =>
    obtain ⟨flight, hfind, hregular⟩ := finished_pollWith h
    exact ⟨_, _, by rw [subject?, hfind]; rfl, hregular⟩
  | release slot =>
    obtain ⟨flight, hfind, hregular⟩ := finished_pollWith h
    exact ⟨_, _, by rw [subject?, hfind]; rfl, hregular⟩
  | drop slot => cases h
  | advance nanoseconds => cases h

/-- A call that is looked at when its time is over ends, with a report if its reply adds up. -/
theorem finished_poll_of_late {s : Session} {slot : String} {flight : Flight}
    (hfind : s.find? slot = some flight) (hlate : flight.call.deadline ≤ s.clock)
    (hadds : ReplyAddsUp flight.call.conduct.reply) :
    ∃ report, (s.poll slot).2 = .finished report := by
  -- being asked does not move a call's deadline
  have hdeadline : (flight.call.ask s.clock).isLate s.clock = true := by
    rw [Call.isLate, decide_eq_true_eq]
    unfold Call.ask
    split <;> exact hlate
  obtain ⟨report, hreport, -⟩ := Call.exists_report_of_addsUp
    ((Call.conduct_ask s.clock flight.call).symm ▸ hadds) s.clock
  refine ⟨report, ?_⟩
  have hpoll : flight.call.poll s.clock = (flight.call.ask s.clock, some (.ok report)) := by
    rw [Call.poll, hdeadline, Bool.or_true, if_pos rfl, hreport]
  have hclock : (s.clear slot).clock = s.clock := rfl
  rw [poll, pollWith, hfind]
  simp only [goOn, hclock, hpoll]
  rfl

/-! ### What an analysis answers -/

/-- An idle analyzer turns away a blank source and an unknown language, and answers everything else
with a report, whatever its service does, if only the counts of a reply add up. A call that is kept
in a slot has its report at the latest when its time is over. No step hands out a degraded report,
whatever the reply. -/
theorem analyze_answered :
    (∀ (s : Session) (n : Nat) (a : Analyzer), s.analyzers[n]? = some a → a.busy = false →
      ∀ request : Request,
        (Text.isBlankText request.source = true →
          ∀ t : Step, t.request? = some (n, request) → (s.step t).2 = .rejected .emptyInput) ∧
        (Text.isBlankText request.source = false → (∀ l : Language, l.id ≠ request.language) →
          ∀ t : Step, t.request? = some (n, request) →
            (s.step t).2 = .rejected (.unknownLanguage request.language)) ∧
        (Text.isBlankText request.source = false → ∀ l : Language, l.id = request.language →
          ((a.gateway = none ∨ ReplyAddsUp request.conduct.reply) →
            ∃ report, (s.analyze n request).2 = .finished report ∧
              (report.origin = .scanner ∨ ∃ g ∈ a.gateway, report.origin = .remote g.name)) ∧
          ∀ slot, (s.start slot n request).2.isAccepted = true)) ∧
    (∀ (s : Session) (slot : String) (flight : Flight), s.find? slot = some flight →
      flight.call.deadline ≤ s.clock → ReplyAddsUp flight.call.conduct.reply →
      ∃ report, (s.poll slot).2 = .finished report) ∧
    ∀ (s : Session) (t : Step) (report : Report), (s.step t).2 = .finished report →
      report.origin ≠ .degraded := by
  refine ⟨fun s n a ha hidle request => ⟨?_, ?_, ?_⟩, fun s slot flight => finished_poll_of_late,
    fun s t report hfinished => ?_⟩
  · intro hblank t ht
    rw [rejected_iff ht ha, admission_eq_error_iff]
    exact .inl ⟨hblank, rfl⟩
  · intro hblank hunknown t ht
    have hnone : Language.ofId? request.language = none := by
      cases hl : Language.ofId? request.language with
      | none => rfl
      | some l => exact absurd (Language.id_of_ofId? hl) (hunknown l)
    rw [rejected_iff ht ha, admission_eq_error_iff]
    exact .inr (.inl ⟨hblank, hnone, rfl⟩)
  · intro hblank l hl
    constructor
    -- A reply that adds up is concluded with a report, at whatever moment it is looked at.
    · intro hadds
      cases hgateway : a.gateway with
      | none => exact ⟨_, analyze_local ha hidle hgateway hblank hl, .inl rfl⟩
      | some g =>
        have hadds := hadds.resolve_left (by rw [hgateway]; exact Option.some_ne_none g)
        obtain ⟨report, hreport, horigin⟩ := Call.exists_report_of_addsUp
          (c := (request.call g l s.clock).ask s.clock) (by rwa [Call.conduct_ask])
          (((request.call g l s.clock).ask s.clock).wake s.clock)
        refine ⟨report, ?_, ?_⟩
        · rw [analyze_remote ha hidle hgateway hblank hl, Call.final, hreport]
          rfl
        · rw [Call.gateway_ask] at horigin
          exact horigin.imp_right fun horigin => ⟨g, rfl, horigin⟩
    -- An idle analyzer has no ground left to reject the request.
    · intro slot
      rcases accepted_or_rejected (t := .start slot n request) rfl ha with
        haccepted | ⟨e, hrejected⟩
      · exact haccepted
      · rw [rejected_iff rfl ha, hidle, ← hl, admission_idle hblank] at hrejected
        cases hrejected
  -- None of the forms of a regular report is degraded.
  · obtain ⟨source, l, -, hregular⟩ := report_of_finished hfinished
    cases hregular <;> exact Origin.noConfusion

/-- A service that keeps silent: its call is answered all the same, whether it is run to its end or
looked at when its time is over. -/
theorem analyze_answered_silent :
    let s := opened [some { name := "ai", timeout := 1000 }]
    let request : Request := ⟨"x", "python", { gated := true, reply := .error .busy }⟩
    let waiting := s.run [.start "a" 0 request, .advance 1000]
    (s.step (.analyze 0 { request with source := " \n" })).2 = .rejected .emptyInput ∧
    (s.step (.analyze 0 { request with language := "rust" })).2 =
      .rejected (.unknownLanguage "rust") ∧
    (∃ report, (s.analyze 0 request).2 = .finished report ∧
      (report.origin = .scanner ∨ report.origin = .remote "ai")) ∧
    ∃ report, (waiting.poll "a").2 = .finished report ∧ report.origin ≠ .degraded := by
  intro s request waiting
  obtain ⟨hanswered, hlate, hregular⟩ := analyze_answered
  have hidle := hanswered s 0 _ rfl rfl
  refine ⟨(hidle { request with source := " \n" }).1 (by decide) _ rfl,
    (hidle { request with language := "rust" }).2.1 (by decide) ?_ _ rfl, ?_, ?_⟩
  · intro l
    cases l <;> decide
  · obtain ⟨hreport, -⟩ := (hidle request).2.2 (by decide) .python rfl
    obtain ⟨report, hreport, horigin⟩ := hreport (.inr (replyAddsUp_error .busy))
    refine ⟨report, hreport, horigin.imp_right ?_⟩
    rintro ⟨g, hg, horigin⟩
    cases hg
    exact horigin
  -- The call that was started is still held when its deadline has come.
  · have hheld : (waiting.find? "a").any (fun flight =>
        decide (flight.call.deadline ≤ waiting.clock ∧ flight.call.conduct.reply = .error .busy)) =
        true := by
      decide +kernel
    obtain ⟨flight, hfind, hheld⟩ := Option.any_eq_true _ _ |>.mp hheld
    obtain ⟨hdue, hreply⟩ := of_decide_eq_true hheld
    obtain ⟨report, hreport⟩ :=
      hlate waiting "a" flight hfind hdue (hreply ▸ replyAddsUp_error .busy)
    exact ⟨report, hreport, hregular waiting (.poll "a") report hreport⟩

/-! ### What a failure leaves behind -/

/-- An analyzer whose service failed reports what one without a service reports: the scan of the
source. The two reports differ in the reason, which is the failure itself. A service that did not
fail is the origin of the report, unless its reply makes reading break off. -/
theorem fallback_traceless :
    (∀ (source : String) (l : Language), Text.isBlankText source = false →
      ∀ (s₁ s₂ : Session) (n₁ n₂ : Nat) (a₁ a₂ : Analyzer) (g : Gateway) (d₁ d₂ : Conduct),
        s₁.analyzers[n₁]? = some a₁ → a₁.busy = false → a₁.gateway = none →
        s₂.analyzers[n₂]? = some a₂ → a₂.busy = false → a₂.gateway = some g →
        ∃ r₁, (s₁.analyze n₁ ⟨source, l.id, d₁⟩).2 = .finished r₁ ∧
          r₁.listing = l.profile.scan source ∧ r₁.origin = .scanner ∧ r₁.consistent = true ∧
          r₁.fallbackReason = none ∧
          (∀ e, d₂.Fails g e → ∃ r₂, (s₂.analyze n₂ ⟨source, l.id, d₂⟩).2 = .finished r₂ ∧
            r₂ = { r₁ with failure := some e } ∧ r₂.fallbackReason = some e.message) ∧
          ((∀ e, ¬ d₂.Fails g e) →
            (∃ r₂, (s₂.analyze n₂ ⟨source, l.id, d₂⟩).2 = .finished r₂ ∧
              r₂.origin = .remote g.name) ∨
            ∃ fault, (s₂.analyze n₂ ⟨source, l.id, d₂⟩).2 = .faulted fault ∧
              ReplyFaults d₂.reply fault)) ∧
    ∀ (s : Session) (t : Step) (report : Report), (s.step t).2 = .finished report →
      ∃ source l, s.subject? t = some (source, l) ∧
        (report.origin = .scanner → report.listing = l.profile.scan source) ∧
        (∀ name, report.origin = .remote name → report.fallbackReason = none) ∧
        (report.consistent = false → ∃ name, report.origin = .remote name) := by
  constructor
  · intro source l hblank s₁ s₂ n₁ n₂ a₁ a₂ g d₁ d₂ ha₁ hidle₁ hlocal ha₂ hidle₂ hremote
    refine ⟨_, analyze_local ha₁ hidle₁ hlocal hblank rfl, rfl, rfl, rfl, rfl, ?_, ?_⟩
    all_goals rw [analyze_remote ha₂ hidle₂ hremote hblank rfl, Call.final]
    -- The deadline and the conduct decide alike for the call that runs to its end.
    · intro e hfails
      have hfinal := Call.conclude_of_fails
        ((Call.fails_final_iff ⟨source, l.id, d₂⟩ g l s₂.clock e).mpr hfails)
      rw [Call.source_ask, Call.language_ask] at hfinal
      exact ⟨_, by rw [hfinal]; rfl, rfl, rfl⟩
    -- Without a failure the reply is used, or its counts overflow.
    · intro hnone
      rcases Call.conclude_cases _ _ with
        ⟨e, hfails⟩ | ⟨accepted, -, hanswered⟩ | ⟨fault, hfaults, hfault⟩
      · exact absurd ((Call.fails_final_iff ⟨source, l.id, d₂⟩ g l s₂.clock e).mp hfails) (hnone e)
      · rw [hanswered, Call.gateway_ask]
        exact .inl ⟨_, rfl, rfl⟩
      · rw [hfault]
        rw [Call.conduct_ask] at hfaults
        exact .inr ⟨fault, rfl, hfaults⟩
  · intro s t report hfinished
    obtain ⟨source, l, hsubject, hregular⟩ := report_of_finished hfinished
    refine ⟨source, l, hsubject, ?_⟩
    cases hregular with
    | scanned failure =>
      exact ⟨fun _ => rfl, fun _ h => (by cases h), fun h => (by cases h)⟩
    | remote name accepted =>
      exact ⟨fun h => (by cases h), fun _ _ => rfl, fun _ => ⟨name, rfl⟩⟩

/-- Two analyzers of a session, one of which has a service that takes too long. -/
theorem fallback_traceless_late :
    let s := opened [none, some { name := "ai", timeout := 1500000 }]
    let d : Conduct := { delay := 2000000, reply := .ok "[]" }
    ∃ r₁ r₂, (s.analyze 0 ⟨"x", "python", d⟩).2 = .finished r₁ ∧
      (s.analyze 1 ⟨"x", "python", d⟩).2 = .finished r₂ ∧
      r₁.listing = Language.python.profile.scan "x" ∧ r₂.listing = r₁.listing ∧
      r₁.fallbackReason = none ∧
      r₂.fallbackReason = some "Timeout after 1.5ms: remote analysis" ∧
      r₂.consistent ≠ false := by
  intro s d
  obtain ⟨hruns, hreports⟩ := fallback_traceless
  obtain ⟨r₁, h₁, hlisting, horigin, -, hnone, hfails, -⟩ :=
    hruns "x" .python (by decide) s s 0 1 _ _ _ d d rfl rfl rfl rfl rfl rfl
  obtain ⟨r₂, h₂, hr₂, hreason⟩ := hfails _ (.late (by decide))
  refine ⟨r₁, r₂, h₁, h₂, hlisting, by rw [hr₂], hnone, hreason.trans (by decide +kernel), ?_⟩
  -- Only reports of the service may be inconsistent.
  obtain ⟨-, -, -, -, -, hinconsistent⟩ := hreports s (.analyze 1 ⟨"x", "python", d⟩) r₂ h₂
  intro hfalse
  obtain ⟨name, hremote⟩ := hinconsistent hfalse
  rw [hr₂, horigin] at hremote
  cases hremote

end Session

end PolyLex.Analysis
