import PolyLex.Proofs.Analysis.Steps

/-!
# One call at a time

Whatever is done with a session, in whatever order, an analyzer is busy exactly while one call of
it is in flight, and there are never two (`Session.Orderly`). The invariant holds of a session in
which nothing was done yet, and every step keeps it (`orderly_step`), because a call comes in only
at an idle analyzer and the flag is cleared by the very step that ends a call.

`singleFlight_run` says what follows for whoever asks: when a request is turned away and why, and
what a step leaves alone.
-/

namespace PolyLex.Analysis

namespace Session

/-- A session in which nothing was done yet. -/
def opened (gateways : List (Option Gateway)) : Session where
  analyzers := gateways.map fun gateway => { gateway }

/-- The calls in flight are kept apart, and each analyzer is busy with its only one. -/
structure Orderly (s : Session) : Prop where
  slots : s.SlotsDistinct
  inFlight : ∀ n, s.inFlight n = (s.isBusy n).toNat

/-- A number that is counted up along a run. -/
def tally (count : Session → Step → Nat) : Session → List Step → Nat
  | _, [] => 0
  | s, t :: steps => count s t + tally count (s.step t).1 steps

/-- How many calls reached the remote service of an analyzer. -/
def reached (n : Nat) (s : Session) : Nat := (s.analyzers[n]?.map Analyzer.reached).getD 0

/-- Has an analyzer a remote service? -/
def hasRemote (n : Nat) (s : Session) : Bool := s.analyzers[n]?.any Analyzer.hasRemote

/-! ### The invariant -/

/-- A session that has just been opened is orderly. -/
theorem orderly_opened (gateways : List (Option Gateway)) : (opened gateways).Orderly where
  slots := List.nodup_nil
  inFlight n := by
    rw [isBusy, opened, List.getElem?_map]
    cases gateways[n]? <;> rfl

/-- A call comes in only at an idle analyzer, and one at a time. -/
theorem entered_cases (n : Nat) (s : Session) (t : Step) : s.entered n t = 0 ∨
    s.entered n t = 1 ∧ ∃ a, s.analyzers[n]? = some a ∧ a.busy = false := by
  cases ht : t.request? with
  | none =>
    left
    rw [entered, ht]
  | some asked =>
    obtain ⟨m, request⟩ := asked
    have hentered := entered_of_request (s := s) ht n
    by_cases hcond : m = n ∧ (s.step t).2.isAccepted = true
    · right
      rw [if_pos hcond] at hentered
      obtain ⟨rfl, haccepted⟩ := hcond
      refine ⟨hentered, ?_⟩
      -- Both ways to be let in find the analyzer idle.
      have henters := enters_enter m request s
      generalize henter : s.enter m request = entry at henters
      cases henters with
      | nobody =>
        rw [step_of_error ht henter] at haccepted
        cases haccepted
      | refused =>
        rw [step_of_error ht henter] at haccepted
        cases haccepted
      | reported ha hadmission => exact ⟨_, ha, idle_of_admission hadmission⟩
      | called ha hadmission => exact ⟨_, ha, idle_of_admission hadmission⟩
    · left
      rw [hentered, if_neg hcond]

/-- After a step an analyzer is busy if it was or a request came in, and none ended. -/
theorem isBusy_step (n : Nat) (s : Session) (t : Step) : (s.step t).1.isBusy n =
    s.analyzers[n]?.any fun a => (a.busy || s.entered n t != 0) && s.ended n t == 0 := by
  rw [isBusy, (change_step s t).analyzers n, Option.any_map]
  rfl

/-- In an orderly session no analyzer has two calls in flight. -/
theorem Orderly.inFlight_le_one {s : Session} (h : s.Orderly) (n : Nat) : s.inFlight n ≤ 1 := by
  rw [h.inFlight]
  exact Bool.toNat_le _

/-- What the busy flag has to be after calls came and went. -/
theorem toNat_after {busy : Bool} {came went live : Nat} (h : live + went = busy.toNat + came)
    (hcame : came = 0 ∨ came = 1 ∧ busy = false) :
    live = ((busy || came != 0) && went == 0).toNat := by
  -- One call at most is there or comes in, so one at most ends.
  rcases hcame with rfl | ⟨rfl, rfl⟩
  · cases busy with
    | false =>
      rw [Bool.toNat_false] at h
      obtain ⟨rfl, rfl⟩ : live = 0 ∧ went = 0 := by omega
      rfl
    | true =>
      rw [Bool.toNat_true] at h
      rcases (by omega : live = 1 ∧ went = 0 ∨ live = 0 ∧ went = 1) with ⟨rfl, rfl⟩ | ⟨rfl, rfl⟩
        <;> rfl
  · rw [Bool.toNat_false] at h
    rcases (by omega : live = 1 ∧ went = 0 ∨ live = 0 ∧ went = 1) with ⟨rfl, rfl⟩ | ⟨rfl, rfl⟩
      <;> rfl

/-- Every step keeps a session orderly. -/
theorem orderly_step {s : Session} (h : s.Orderly) (t : Step) : (s.step t).1.Orderly where
  slots := (change_step s t).slots h.slots
  inFlight n := by
    have hbalance := (change_step s t).inFlight h.slots n
    have hentered := entered_cases n s t
    rw [h.inFlight n, isBusy] at hbalance
    rw [isBusy_step]
    cases ha : s.analyzers[n]? with
    | none =>
      -- Nobody is there who could let a call in.
      have hnone : s.entered n t = 0 := by
        rcases hentered with hnone | ⟨-, a, hsome, -⟩
        · exact hnone
        · rw [ha] at hsome
          cases hsome
      rw [ha, hnone] at hbalance
      exact (Nat.add_eq_zero_iff.mp hbalance).1
    | some a =>
      rw [ha] at hbalance
      refine toNat_after hbalance (hentered.imp_right ?_)
      rintro ⟨hone, b, hb, hidle⟩
      rw [ha] at hb
      cases hb
      exact ⟨hone, hidle⟩

/-- Whatever steps are taken, a session stays orderly. -/
theorem orderly_run {s : Session} (h : s.Orderly) (steps : List Step) : (s.run steps).Orderly := by
  induction steps generalizing s with
  | nil => exact h
  | cons t steps ih => exact ih (orderly_step h t)

/-! ### Counting along a run -/

/-- The calls in flight are those that came in and did not end. -/
theorem inFlight_run {s : Session} (h : s.Orderly) (n : Nat) (steps : List Step) :
    (s.run steps).inFlight n + tally (ended n) s steps =
      s.inFlight n + tally (entered n) s steps := by
  induction steps generalizing s with
  | nil => rfl
  | cons t steps ih =>
    have hstep := (change_step s t).inFlight h.slots n
    have hsteps := ih (orderly_step h t)
    show ((s.step t).1.run steps).inFlight n + (s.ended n t + tally (ended n) (s.step t).1 steps) =
      s.inFlight n + (s.entered n t + tally (entered n) (s.step t).1 steps)
    omega

/-- No step gives an analyzer a gateway or takes it away. -/
theorem hasRemote_step (n : Nat) (s : Session) (t : Step) :
    (s.step t).1.hasRemote n = s.hasRemote n := by
  rw [hasRemote, (change_step s t).analyzers n, Option.any_map]
  rfl

/-- A call reaches the remote service in the step in which it comes in. -/
theorem reached_step (n : Nat) (s : Session) (t : Step) : (s.step t).1.reached n =
    s.reached n + if s.hasRemote n then s.entered n t else 0 := by
  rw [reached, reached, hasRemote, (change_step s t).analyzers n, Option.map_map]
  cases ha : s.analyzers[n]? with
  | none => rfl
  | some a => rfl

/-- A gateway is reached once for each call that was accepted. -/
theorem reached_run (n : Nat) (s : Session) (steps : List Step) : (s.run steps).reached n =
    s.reached n + if s.hasRemote n then tally (entered n) s steps else 0 := by
  induction steps generalizing s with
  | nil => simp [run, tally]
  | cons t steps ih =>
    show ((s.step t).1.run steps).reached n = _
    rw [ih, reached_step, hasRemote_step, tally]
    split <;> omega

/-! ### Requests that are turned away -/

/-- The input is looked at before the analyzer. -/
theorem admission_eq_error_iff {busy : Bool} {source language : String} {e : Error} :
    admission busy source language = .error e ↔
      (Text.isBlankText source = true ∧ e = .emptyInput) ∨
      (Text.isBlankText source = false ∧ Language.ofId? language = none ∧
        e = .unknownLanguage language) ∨
      (Text.isBlankText source = false ∧ (Language.ofId? language).isSome = true ∧
        busy = true ∧ e = .busy) := by
  unfold admission
  cases Text.isBlankText source with
  | true =>
    rw [if_pos rfl, Except.error.injEq]
    simp only [true_and, Bool.true_eq_false, false_and, or_false]
    exact eq_comm
  | false =>
    rw [if_neg Bool.false_ne_true]
    simp only [Bool.false_eq_true, false_and, false_or, true_and]
    cases Language.ofId? language with
    | none =>
      simp only [Except.error.injEq, true_and, Option.isSome_none, Bool.false_eq_true, false_and,
        or_false]
      exact eq_comm
    | some l =>
      simp only [reduceCtorEq, false_and, false_or, Option.isSome_some, true_and]
      cases busy with
      | true =>
        rw [if_pos rfl, Except.error.injEq]
        simp only [true_and]
        exact eq_comm
      | false => simp

/-- A request is rejected just with the cause for which it is not admitted. -/
theorem rejected_iff {s : Session} {t : Step} {n : Nat} {request : Request} {a : Analyzer}
    (ht : t.request? = some (n, request)) (ha : s.analyzers[n]? = some a) (e : Error) :
    (s.step t).2 = .rejected e ↔
      admission a.busy request.source request.language = .error e := by
  have henters := enters_enter n request s
  generalize henter : s.enter n request = entry at henters
  -- Once the request is let in, neither side of the claim can hold.
  have hlet_in : ∀ {entry : Session × Entry} {l : Language}, s.enter n request = .ok entry →
      admission a.busy request.source request.language = .ok l →
      ((s.step t).2 = .rejected e ↔
        admission a.busy request.source request.language = .error e) := by
    intro entry l henter hadmission
    have haccepted := isAccepted_of_ok ht henter
    constructor
    · intro hrejected
      rw [hrejected] at haccepted
      cases haccepted
    · intro herror
      rw [herror] at hadmission
      cases hadmission
  cases henters with
  | nobody hnone =>
    rw [ha] at hnone
    cases hnone
  | refused hb hadmission =>
    rw [ha] at hb
    cases hb
    rw [step_of_error ht henter, hadmission]
    simp
  | reported hb hadmission =>
    rw [ha] at hb
    cases hb
    exact hlet_in henter hadmission
  | called hb hadmission =>
    rw [ha] at hb
    cases hb
    exact hlet_in henter hadmission

theorem pollWith_ne_rejected {change : Call → Call} {slot : String} {s : Session} {e : Error} :
    (s.pollWith change slot).2 ≠ .rejected e := by
  intro h
  unfold pollWith at h
  split at h
  · next flight hfind =>
    have haccepted := isAccepted_goOn slot { flight with call := change flight.call } (s.clear slot)
    rw [h] at haccepted
    cases haccepted
  · cases h

/-- What is turned away leaves the session as it was. -/
theorem step_of_rejected {s : Session} {t : Step} {e : Error} (h : (s.step t).2 = .rejected e) :
    (s.step t).1 = s := by
  cases ht : t.request? with
  | some asked =>
    obtain ⟨n, request⟩ := asked
    cases henter : s.enter n request with
    | error outcome => rw [step_of_error ht henter]
    | ok entry =>
      have haccepted := isAccepted_of_ok ht henter
      rw [h] at haccepted
      cases haccepted
  | none =>
    cases t with
    | poll slot => exact absurd h pollWith_ne_rejected
    | release slot => exact absurd h pollWith_ne_rejected
    | drop slot => cases h
    | advance nanoseconds => cases h
    | _ => cases ht

/-- A request to an analyzer is accepted or rejected. -/
theorem accepted_or_rejected {s : Session} {t : Step} {n : Nat} {request : Request} {a : Analyzer}
    (ht : t.request? = some (n, request)) (ha : s.analyzers[n]? = some a) :
    (s.step t).2.isAccepted = true ∨ ∃ e, (s.step t).2 = .rejected e := by
  cases henter : s.enter n request with
  | ok entry => exact .inl (isAccepted_of_ok ht henter)
  | error outcome =>
    right
    have henters := enters_enter n request s
    rw [henter] at henters
    cases henters with
    | nobody hnone =>
      rw [ha] at hnone
      cases hnone
    | @refused _ e =>
      refine ⟨e, ?_⟩
      rw [step_of_error ht henter]

/-! ### The guarantees -/

/-- What whoever works with a session can rely on. -/
structure SingleFlight (s : Session) : Prop where
  /-- An analyzer is busy exactly while one call of it is in flight. -/
  busy_iff : ∀ n, s.isBusy n = true ↔ s.inFlight n = 1
  at_most_one : ∀ n, s.inFlight n ≤ 1
  /-- A request is let in or turned away, -/
  answered : ∀ t n request, t.request? = some (n, request) → n < s.analyzers.length →
    (s.step t).2.isAccepted = true ∨ ∃ e, (s.step t).2 = .rejected e
  /-- the latter for a blank source, an unknown language or a call in flight, in this order, -/
  rejected_iff : ∀ t n request, t.request? = some (n, request) → n < s.analyzers.length →
    ∀ e, (s.step t).2 = .rejected e ↔
      (Text.isBlankText request.source = true ∧ e = .emptyInput) ∨
      (Text.isBlankText request.source = false ∧ Language.ofId? request.language = none ∧
        e = .unknownLanguage request.language) ∨
      (Text.isBlankText request.source = false ∧ (Language.ofId? request.language).isSome = true ∧
        s.inFlight n = 1 ∧ e = .busy)
  /-- and then nothing has changed. -/
  rejected_unchanged : ∀ t e, (s.step t).2 = .rejected e → (s.step t).1 = s
  /-- The remote service is reached by each call that is let in, once, and by no other. -/
  reached_step : ∀ t n, (s.step t).1.reached n =
    s.reached n + if s.hasRemote n then s.entered n t else 0
  /-- The step that ends a call frees its analyzer. -/
  freed : ∀ t n, 0 < s.ended n t → (s.step t).1.isBusy n = false ∧ (s.step t).1.inFlight n = 0
  /-- An analyzer for which no call comes in and none ends stays as it is. -/
  untouched : ∀ t n, s.entered n t = 0 → s.ended n t = 0 →
    (s.step t).1.analyzers[n]? = s.analyzers[n]?

/-- An analyzer is busy just if it has one call in flight. -/
theorem Orderly.isBusy_iff {s : Session} (h : s.Orderly) (n : Nat) :
    s.isBusy n = true ↔ s.inFlight n = 1 := by
  rw [h.inFlight]
  cases s.isBusy n <;> simp

theorem Orderly.singleFlight {s : Session} (h : s.Orderly) : s.SingleFlight where
  busy_iff := h.isBusy_iff
  at_most_one := h.inFlight_le_one
  answered t n request ht hn := accepted_or_rejected ht (List.getElem?_eq_getElem hn)
  rejected_iff t n request ht hn e := by
    have ha := List.getElem?_eq_getElem hn
    have hbusy : s.analyzers[n].busy = true ↔ s.inFlight n = 1 := by
      rw [← h.isBusy_iff, isBusy, ha, Option.any_some]
    rw [Session.rejected_iff ht ha, admission_eq_error_iff, hbusy]
  rejected_unchanged t e := step_of_rejected
  reached_step t n := Session.reached_step n s t
  freed t n hended := by
    have hidle : (s.step t).1.isBusy n = false := by
      have hne : (s.ended n t == 0) = false := by simpa using Nat.ne_of_gt hended
      rw [isBusy_step, hne]
      cases s.analyzers[n]? <;> simp
    exact ⟨hidle, by rw [(orderly_step h t).inFlight, hidle]; rfl⟩
  untouched t n hentered hended := by
    rw [(change_step s t).analyzers n, hentered, hended, map_after_zero]

/-- Single flight over any steps in any order: the guarantees hold wherever a session can come, the
calls in flight are those that were let in and did not end, and the remote service was reached once
by each that was let in. -/
theorem singleFlight_run (gateways : List (Option Gateway)) (steps : List Step) :
    ((opened gateways).run steps).SingleFlight ∧
    ∀ n, ((opened gateways).run steps).inFlight n + tally (ended n) (opened gateways) steps =
        tally (entered n) (opened gateways) steps ∧
      ((opened gateways).run steps).reached n =
        if (opened gateways).hasRemote n then tally (entered n) (opened gateways) steps else 0 := by
  have hopened := orderly_opened gateways
  refine ⟨(orderly_run hopened steps).singleFlight, fun n => ⟨?_, ?_⟩⟩
  · rw [inFlight_run hopened]
    exact Nat.zero_add _
  · have hnone : (opened gateways).reached n = 0 := by
      rw [reached, opened, List.getElem?_map]
      cases gateways[n]? <;> rfl
    rw [reached_run, hnone, Nat.zero_add]

/-- While a call waits for a service that was not let go, the next one is turned away. -/
theorem singleFlight_run_gated :
    let s := (opened [some { name := "ai", timeout := 1000 }]).run
      [.start "a" 0 ⟨"x", "python", { gated := true, reply := .ok "" }⟩]
    s.inFlight 0 = 1 ∧
      (s.step (.start "b" 0 ⟨"y", "java", { reply := .ok "" }⟩)).2 = .rejected .busy := by
  intro s
  have hone : s.inFlight 0 = 1 := by decide +kernel
  have hlength : 0 < s.analyzers.length := by decide +kernel
  refine ⟨hone, ((singleFlight_run _ _).1.rejected_iff _ 0 _ rfl hlength .busy).mpr ?_⟩
  exact .inr (.inr ⟨by decide, by decide, hone, rfl⟩)

end Session

end PolyLex.Analysis
