import PolyLex.Analysis.Session

/-!
# What a step does to a session

A step of a session lets calls in and ends calls. How many it does for an analyzer is read off its
outcome and the slot it works on (`Session.entered`, `Session.ended`), and that settles everything
else that can be seen of an analyzer (`Session.Change`, `change_step`): the busy flag is set by a
call that comes in and cleared by one that ends, the remote service is reached by each call that
comes in, and the calls in flight are those that came in and did not end.

* `goOn_cases` — a call that goes on ends, or is put in its slot;
* `enters_enter` — a request is turned away, or has its report at once, or makes a call;
* `change_step` — the books balance, one case for each kind of step.
-/

namespace PolyLex.Analysis

/-- The analyzer after a step in which so many calls came in and so many ended. -/
def Analyzer.after (came went : Nat) (a : Analyzer) : Analyzer :=
  { a with
    busy := (a.busy || came != 0) && went == 0
    reached := a.reached + if a.hasRemote then came else 0 }

theorem Analyzer.after_zero (a : Analyzer) : a.after 0 0 = a := by
  cases a
  simp [after]

/-- What comes in and goes out in one step may be counted in two. -/
theorem Analyzer.after_after (came went : Nat) (a : Analyzer) :
    (a.after came 0).after 0 went = a.after came went := by
  simp [after, hasRemote]

/-- Did a call end? It has its report, or it broke off. -/
def Outcome.isEnding : Outcome → Bool
  | finished _ => true
  | faulted _ => true
  | _ => false

/-- Was a request let in? Then it waits or has come to its end already. -/
def Outcome.isAccepted : Outcome → Bool
  | pending => true
  | outcome => outcome.isEnding

@[simp] theorem Outcome.isEnding_ofEnding (ending : Except ArithmeticFault Report) :
    (ofEnding ending).isEnding = true := by
  cases ending <;> rfl

@[simp] theorem Outcome.isAccepted_ofEnding (ending : Except ArithmeticFault Report) :
    (ofEnding ending).isAccepted = true := by
  cases ending <;> rfl

namespace Session

/-! ### What is counted -/

/-- The request of a step and the number of the analyzer that is asked. -/
def Step.request? : Step → Option (Nat × Request)
  | analyze n request => some (n, request)
  | start _ n request => some (n, request)
  | _ => none

/-- How many calls of an analyzer are in a slot. -/
def held (n : Nat) (slot : String) (s : Session) : Nat :=
  if (s.find? slot).any (·.analyzer = n) then 1 else 0

/-- How many calls of an analyzer are in flight. -/
def inFlight (n : Nat) (s : Session) : Nat := s.slots.countP (·.2.analyzer = n)

/-- Is an analyzer busy? -/
def isBusy (n : Nat) (s : Session) : Bool := s.analyzers[n]?.any Analyzer.busy

/-- How many calls an analyzer lets in in a step. -/
def entered (n : Nat) (s : Session) (t : Step) : Nat :=
  match t.request? with
  | some (m, _) => if m = n ∧ (s.step t).2.isAccepted then 1 else 0
  | none => 0

/-- How many calls of an analyzer end in a step: they have their report, or they broke off, or they
are abandoned. A call that is put in a slot takes the place of the call that was there. -/
def ended (n : Nat) (s : Session) : Step → Nat
  | .analyze m request => if (s.analyze m request).2.isEnding ∧ m = n then 1 else 0
  | .start slot m request =>
    match (s.start slot m request).2 with
    | .pending => s.held n slot
    | outcome => if outcome.isEnding ∧ m = n then 1 else 0
  | .poll slot => if (s.poll slot).2.isEnding then s.held n slot else 0
  | .release slot => if (s.release slot).2.isEnding then s.held n slot else 0
  | .drop slot => s.held n slot
  | .advance _ => 0

/-- No two calls have one slot. -/
def SlotsDistinct (s : Session) : Prop := (s.slots.map Prod.fst).Nodup

/-! ### Slots -/

theorem mem_of_find? {slot : String} {flight : Flight} {s : Session}
    (h : s.find? slot = some flight) : (slot, flight) ∈ s.slots :=
  Keyed.mem_of_find? h

theorem find?_clear (slot : String) (s : Session) : (s.clear slot).find? slot = none := by
  cases h : (s.clear slot).find? slot with
  | none => rfl
  | some flight =>
    have hmem := (List.mem_filter.mp (mem_of_find? h)).2
    simp at hmem

theorem SlotsDistinct.clear {s : Session} (h : s.SlotsDistinct) (slot : String) :
    (s.clear slot).SlotsDistinct :=
  h.sublist (List.filter_sublist.map Prod.fst)

/-- The entries that pass a test are those behind other keys, and perhaps the one behind this key.
-/
theorem countP_filter_key {α : Type} (q : α → Bool) (key : String) :
    ∀ entries : List (String × α), (entries.map Prod.fst).Nodup →
      (entries.filter (·.1 ≠ key)).countP (fun e => q e.2) +
        (if (Keyed.find? key entries).any q then 1 else 0) = entries.countP (fun e => q e.2)
  | [], _ => rfl
  | e :: entries, h => by
    obtain ⟨hhead, htail⟩ := List.nodup_cons.mp h
    have ih := countP_filter_key q key entries htail
    rw [Keyed.find?]
    by_cases he : e.1 = key
    · -- The key stands here and does not come again.
      have hrest : entries.filter (·.1 ≠ key) = entries := by
        rw [List.filter_eq_self]
        intro d hd
        have hne : d.1 ≠ key := by
          intro hd'
          exact hhead (List.mem_map.mpr ⟨d, hd, hd'.trans he.symm⟩)
        simpa using hne
      rw [if_pos he, List.filter_cons_of_neg (by simpa using he), hrest, List.countP_cons,
        Option.any_some]
    · rw [if_neg he, List.filter_cons_of_pos (by simpa using he), List.countP_cons,
        List.countP_cons]
      omega

/-- Emptying a slot takes away the call that was there, and no other. -/
theorem inFlight_clear {s : Session} (h : s.SlotsDistinct) (n : Nat) (slot : String) :
    (s.clear slot).inFlight n + s.held n slot = s.inFlight n :=
  countP_filter_key (fun flight : Flight => decide (flight.analyzer = n)) slot s.slots h

/-- To free an analyzer is one call less for it and nothing for the others. -/
theorem analyzers_free (n m : Nat) (s : Session) : (s.free m).analyzers[n]? =
    s.analyzers[n]?.map (Analyzer.after 0 (if m = n then 1 else 0)) := by
  rw [free, modify, List.getElem?_modify, Option.map_eq_map]
  congr 1
  funext a
  split
  · simp [Analyzer.after]
  · exact a.after_zero.symm

/-- An analyzer for which nothing comes or goes stays as it is. -/
theorem map_after_zero (a : Option Analyzer) : a.map (Analyzer.after 0 0) = a := by
  cases a with
  | none => rfl
  | some a => exact congrArg some a.after_zero

/-- To drop a call is one call less for the analyzer that held it. -/
theorem analyzers_drop (n : Nat) (slot : String) (s : Session) : (s.drop slot).analyzers[n]? =
    s.analyzers[n]?.map (Analyzer.after 0 (s.held n slot)) := by
  unfold drop held
  cases s.find? slot with
  | none => exact (map_after_zero _).symm
  | some flight =>
    rw [analyzers_free]
    simp [clear]

theorem held_of_find? {slot : String} {flight : Flight} {s : Session}
    (h : s.find? slot = some flight) (n : Nat) :
    s.held n slot = if flight.analyzer = n then 1 else 0 := by
  rw [held, h]
  simp

theorem held_of_empty {slot : String} {s : Session} (h : s.find? slot = none) (n : Nat) :
    s.held n slot = 0 := by
  rw [held, h]
  rfl

/-- The call of a slot that is dropped is no longer in flight. -/
theorem inFlight_drop {s : Session} (h : s.SlotsDistinct) (n : Nat) (slot : String) :
    (s.drop slot).inFlight n + s.held n slot = s.inFlight n := by
  have hclear := inFlight_clear h n slot
  unfold drop
  cases hfind : s.find? slot with
  | none => rw [held_of_empty hfind, Nat.add_zero]
  | some flight => exact hclear

theorem SlotsDistinct.drop {s : Session} (h : s.SlotsDistinct) (slot : String) :
    (s.drop slot).SlotsDistinct := by
  unfold Session.drop
  split
  · exact h.clear slot
  · exact h

theorem SlotsDistinct.put {s : Session} (h : s.SlotsDistinct) (slot : String) (flight : Flight) :
    (s.put slot flight).SlotsDistinct := by
  refine List.nodup_cons.mpr ⟨?_, h.clear slot⟩
  intro hmem
  obtain ⟨e, he, rfl⟩ := List.mem_map.mp hmem
  simpa using (List.mem_filter.mp he).2

/-- A call that is put into a slot takes the place of the one there. -/
theorem inFlight_put {s : Session} (h : s.SlotsDistinct) (n : Nat) (slot : String)
    (flight : Flight) : (s.put slot flight).inFlight n + s.held n slot =
      s.inFlight n + if flight.analyzer = n then 1 else 0 := by
  have hclear := inFlight_clear h n slot
  have hput : (s.put slot flight).inFlight n =
      (s.clear slot).inFlight n + if flight.analyzer = n then 1 else 0 := by
    rw [inFlight, put, List.countP_cons]
    simp [inFlight]
  omega

/-- An abandoned slot is empty. -/
theorem held_drop (n : Nat) (slot : String) (s : Session) : (s.drop slot).held n slot = 0 := by
  apply held_of_empty
  unfold drop
  cases hfind : s.find? slot with
  | none => exact hfind
  | some flight => exact find?_clear slot s

/-! ### Going on with a call -/

/-- How many calls of an analyzer end when one goes on: this one, or the one whose slot it takes. -/
def endedByGoing (n : Nat) (slot : String) (flight : Flight) (s : Session) : Nat :=
  if (s.goOn slot flight).2.isEnding then if flight.analyzer = n then 1 else 0
  else s.held n slot

/-- A call that goes on ends and frees its analyzer, or is put in its slot. -/
theorem goOn_cases (slot : String) (flight : Flight) (s : Session) :
    (∃ ending, s.goOn slot flight = (s.free flight.analyzer, .ofEnding ending)) ∨
      ∃ call, s.goOn slot flight = ((s.drop slot).put slot { flight with call }, .pending) := by
  unfold goOn
  cases flight.call.poll s.clock with
  | mk call ending =>
    cases ending with
    | none => exact .inr ⟨call, rfl⟩
    | some ending => exact .inl ⟨ending, rfl⟩

/-- To go on with a call is one call less for its analyzer if it ends. -/
theorem analyzers_goOn (n : Nat) (slot : String) (flight : Flight) (s : Session) :
    (s.goOn slot flight).1.analyzers[n]? =
      s.analyzers[n]?.map (Analyzer.after 0 (s.endedByGoing n slot flight)) := by
  unfold endedByGoing
  rcases goOn_cases slot flight s with ⟨ending, h⟩ | ⟨call, h⟩
  · rw [h, Outcome.isEnding_ofEnding, if_pos rfl]
    exact analyzers_free n flight.analyzer s
  · rw [h]
    exact analyzers_drop n slot s

/-- To go on with a call keeps it in flight unless it ends. -/
theorem inFlight_goOn {s : Session} (hs : s.SlotsDistinct) (n : Nat) (slot : String)
    (flight : Flight) : (s.goOn slot flight).1.inFlight n + s.endedByGoing n slot flight =
      s.inFlight n + if flight.analyzer = n then 1 else 0 := by
  unfold endedByGoing
  rcases goOn_cases slot flight s with ⟨ending, h⟩ | ⟨call, h⟩
  · rw [h, Outcome.isEnding_ofEnding, if_pos rfl]
    rfl
  · have hdrop := inFlight_drop hs n slot
    have hput := inFlight_put (hs.drop slot) n slot { flight with call }
    have hpending : Outcome.pending.isEnding = false := rfl
    rw [held_drop] at hput
    rw [h, hpending, if_neg Bool.false_ne_true]
    simp only at hput ⊢
    omega

theorem SlotsDistinct.goOn {s : Session} (hs : s.SlotsDistinct) (slot : String)
    (flight : Flight) : (s.goOn slot flight).1.SlotsDistinct := by
  rcases goOn_cases slot flight s with ⟨ending, h⟩ | ⟨call, h⟩ <;> rw [h]
  · exact hs
  · exact (hs.drop slot).put slot _

/-! ### Entering a request -/

/-- Let a call in: the analyzer is busy, and the remote service is reached. -/
def letIn (n : Nat) (s : Session) : Session :=
  s.modify n fun a => { a with busy := true, reached := a.reached + 1 }

/-- What comes of entering a request: there is no such analyzer, or it turns the request away, or it
reports at once, or it makes a call. -/
inductive Enters (n : Nat) (request : Request) (s : Session) :
    Except Outcome (Session × Entry) → Prop
  | nobody : s.analyzers[n]? = none → Enters n request s (.error .noCall)
  | refused {a e} : s.analyzers[n]? = some a →
      admission a.busy request.source request.language = .error e →
      Enters n request s (.error (.rejected e))
  | reported {a language report} : s.analyzers[n]? = some a →
      admission a.busy request.source request.language = .ok language → a.hasRemote = false →
      Enters n request s (.ok (s, .report report))
  | called {a language call} : s.analyzers[n]? = some a →
      admission a.busy request.source request.language = .ok language → a.hasRemote = true →
      Enters n request s (.ok (s.letIn n, .call call))

/-- A request that comes in changes its own analyzer and no slot. -/
theorem enters_enter (n : Nat) (request : Request) (s : Session) :
    Enters n request s (s.enter n request) := by
  unfold enter
  split
  · next ha => exact .nobody ha
  · next a ha =>
    split
    · next e hadmission => exact .refused ha hadmission
    · next language hadmission =>
      split
      · next hgateway => exact .reported ha hadmission (by rw [Analyzer.hasRemote, hgateway]; rfl)
      · next hgateway => exact .called ha hadmission (by rw [Analyzer.hasRemote, hgateway]; rfl)

/-- A busy analyzer lets nobody in. -/
theorem idle_of_admission {busy : Bool} {source language : String} {l : Language}
    (h : admission busy source language = .ok l) : busy = false := by
  unfold admission at h
  split at h
  · cases h
  · split at h
    · cases h
    · split at h
      · cases h
      · next hbusy => exact Bool.eq_false_iff.mpr hbusy

/-- Making a call is one call that comes in. -/
theorem analyzers_letIn {s : Session} {m : Nat} {a : Analyzer}
    (ha : s.analyzers[m]? = some a) (hremote : a.hasRemote = true) (n : Nat) :
    (s.letIn m).analyzers[n]? =
      s.analyzers[n]?.map (Analyzer.after (if m = n then 1 else 0) 0) := by
  rw [letIn, modify, List.getElem?_modify]
  by_cases hmn : m = n
  · subst hmn
    rw [ha]
    simp [Analyzer.after, hremote]
  · simp [hmn, map_after_zero]

/-- A report that is there at once leaves an idle analyzer as it is. -/
theorem analyzers_report {s : Session} {m : Nat} {a : Analyzer} (ha : s.analyzers[m]? = some a)
    (hidle : a.busy = false) (hremote : a.hasRemote = false) (n : Nat) : s.analyzers[n]? =
      s.analyzers[n]?.map (Analyzer.after (if m = n then 1 else 0) (if m = n then 1 else 0)) := by
  by_cases hmn : m = n
  · subst hmn
    cases a
    rw [ha]
    simp_all [Analyzer.after]
  · simp only [if_neg hmn, map_after_zero]

/-! ### What changes -/

/-- Between two sessions so many calls of each analyzer came in and so many ended. -/
structure Change (s s' : Session) (came went : Nat → Nat) : Prop where
  analyzers : ∀ n, s'.analyzers[n]? = s.analyzers[n]?.map (Analyzer.after (came n) (went n))
  inFlight : s.SlotsDistinct → ∀ n, s'.inFlight n + went n = s.inFlight n + came n
  slots : s.SlotsDistinct → s'.SlotsDistinct

/-- Nothing changes if nothing comes or goes. -/
theorem Change.rfl_of_zero {s : Session} {came went : Nat → Nat} (hcame : ∀ n, came n = 0)
    (hwent : ∀ n, went n = 0) : Change s s came went where
  analyzers n := by rw [hcame, hwent, map_after_zero]
  inFlight _ n := by rw [hcame, hwent]
  slots h := h

theorem change_drop (slot : String) (s : Session) :
    Change s (s.drop slot) (fun _ => 0) (s.held · slot) where
  analyzers n := analyzers_drop n slot s
  inFlight h n := inFlight_drop h n slot
  slots h := h.drop slot

/-! ### Requests -/

section Request

variable {s : Session} {t : Step} {m : Nat} {request : Request}

/-- A request that is not let in changes nothing. -/
theorem step_of_error (ht : t.request? = some (m, request)) {outcome : Outcome}
    (h : s.enter m request = .error outcome) : s.step t = (s, outcome) := by
  cases t <;> cases ht
  · rw [step, analyze, h]
  · rw [step, start, h]

/-- A request that is answered on the spot is finished. -/
theorem step_of_report (ht : t.request? = some (m, request)) {report : Report}
    (h : s.enter m request = .ok (s, .report report)) : s.step t = (s, .finished report) := by
  cases t <;> cases ht
  · rw [step, analyze, h]
  · rw [step, start, h]

theorem isAccepted_goOn (slot : String) (flight : Flight) (s : Session) :
    (s.goOn slot flight).2.isAccepted = true := by
  rcases goOn_cases slot flight s with ⟨ending, h⟩ | ⟨call, h⟩ <;> rw [h]
  · exact Outcome.isAccepted_ofEnding ending
  · rfl

/-- A request that is let in comes to its end or waits. -/
theorem isAccepted_of_ok (ht : t.request? = some (m, request)) {entry : Session × Entry}
    (h : s.enter m request = .ok entry) : (s.step t).2.isAccepted = true := by
  obtain ⟨s', entry⟩ := entry
  cases t with
  | analyze n r =>
    cases ht
    rw [step, analyze, h]
    cases entry with
    | report r => rfl
    | call c => exact Outcome.isAccepted_ofEnding _
  | start slot n r =>
    cases ht
    rw [step, start, h]
    cases entry with
    | report r => rfl
    | call c => exact isAccepted_goOn slot ⟨m, c⟩ s'
  | _ => cases ht

/-- A request enters its own analyzer, and only if it is accepted. -/
theorem entered_of_request (ht : t.request? = some (m, request)) (n : Nat) :
    s.entered n t = if m = n ∧ (s.step t).2.isAccepted then 1 else 0 := by
  rw [entered, ht]

/-- A request that is answered on the spot ends at once. -/
theorem ended_of_isEnding (ht : t.request? = some (m, request))
    (h : (s.step t).2.isEnding = true) (n : Nat) : s.ended n t = if m = n then 1 else 0 := by
  cases t <;> cases ht
  · rw [step] at h
    rw [ended, h]
    simp
  · rw [step] at h
    rw [ended]
    split
    · next hpending =>
      rw [hpending] at h
      cases h
    · rw [h]
      simp

/-- A request that is not accepted ends nothing. -/
theorem ended_of_error (ht : t.request? = some (m, request))
    (h : (s.step t).2.isAccepted = false) (n : Nat) : s.ended n t = 0 := by
  have hnot : (s.step t).2.isEnding = false ∧ (s.step t).2 ≠ .pending := by
    generalize (s.step t).2 = outcome at h ⊢
    cases outcome <;> simp_all [Outcome.isAccepted, Outcome.isEnding]
  cases t <;> cases ht
  · rw [step] at hnot
    rw [ended, hnot.1]
    rfl
  · rw [step] at hnot
    rw [ended]
    split
    · next hpending => exact absurd hpending hnot.2
    · rw [hnot.1]
      rfl

/-- A call that was let in counts as one that came, whatever ends in the same step. -/
theorem change_of_letIn {a : Analyzer} {s' : Session} {went : Nat → Nat}
    (ha : s.analyzers[m]? = some a) (hremote : a.hasRemote = true)
    (hanalyzers : ∀ n, s'.analyzers[n]? =
      (s.letIn m).analyzers[n]?.map (Analyzer.after 0 (went n)))
    (hinFlight : s.SlotsDistinct → ∀ n,
      s'.inFlight n + went n = s.inFlight n + if m = n then 1 else 0)
    (hslots : s.SlotsDistinct → s'.SlotsDistinct) :
    Change s s' (fun n => if m = n then 1 else 0) went where
  analyzers n := by
    rw [hanalyzers, analyzers_letIn ha hremote, Option.map_map]
    congr 1
    funext a
    exact a.after_after _ _
  inFlight := hinFlight
  slots := hslots

/-- A request changes a session by what enters and by what ends. -/
theorem change_request (ht : t.request? = some (m, request)) :
    Change s (s.step t).1 (s.entered · t) (s.ended · t) := by
  have henters := enters_enter m request s
  generalize henter : s.enter m request = entry at henters
  have hentered := entered_of_request (s := s) ht
  cases henters with
  | nobody =>
    have hended := ended_of_error (s := s) ht
    rw [step_of_error ht henter] at hentered hended ⊢
    exact .rfl_of_zero (fun n => by simp [hentered, Outcome.isAccepted, Outcome.isEnding])
      (hended rfl)
  | refused =>
    have hended := ended_of_error (s := s) ht
    rw [step_of_error ht henter] at hentered hended ⊢
    exact .rfl_of_zero (fun n => by simp [hentered, Outcome.isAccepted, Outcome.isEnding])
      (hended rfl)
  | reported ha hadmission hremote =>
    have hstep := step_of_report ht henter
    have hended := ended_of_isEnding (s := s) ht (by rw [hstep]; rfl)
    simp only [hended, hentered, hstep, Outcome.isAccepted, Outcome.isEnding, and_true]
    exact {
      analyzers := analyzers_report ha (idle_of_admission hadmission) hremote
      inFlight := fun _ _ => rfl
      slots := id }
  | @called a language call ha hadmission hremote =>
    have haccepted := isAccepted_of_ok ht henter
    simp only [hentered, haccepted, and_true]
    cases t with
    | analyze n r =>
      cases ht
      -- The call comes in and ends in one step.
      obtain ⟨now, ending, hstep⟩ : ∃ now ending, s.step (.analyze m request) =
          ({ (s.letIn m).free m with clock := now }, .ofEnding ending) :=
        ⟨_, _, by rw [step, analyze, henter]⟩
      have hended := ended_of_isEnding (s := s) (t := .analyze m request) rfl
        (by rw [hstep, Outcome.isEnding_ofEnding])
      simp only [hended, hstep]
      apply change_of_letIn ha hremote
      · intro n
        exact analyzers_free n m (s.letIn m)
      · exact fun _ _ => rfl
      · exact id
    | start slot n r =>
      cases ht
      have hstep : s.step (.start slot m request) = (s.letIn m).goOn slot ⟨m, call⟩ := by
        rw [step, start, henter]
      have hended : ∀ n, s.ended n (.start slot m request) =
          (s.letIn m).endedByGoing n slot ⟨m, call⟩ := by
        intro n
        rw [step] at hstep
        rw [ended, endedByGoing, hstep]
        rcases goOn_cases slot ⟨m, call⟩ (s.letIn m) with ⟨fault | report, h⟩ | ⟨call', h⟩ <;> rw [h]
        · simp [Outcome.ofEnding, Outcome.isEnding]
        · simp [Outcome.ofEnding, Outcome.isEnding]
        · rfl
      simp only [hended, hstep]
      apply change_of_letIn ha hremote
      · intro n
        exact analyzers_goOn n slot ⟨m, call⟩ (s.letIn m)
      · intro h n
        have hletIn : (s.letIn m).SlotsDistinct := h
        exact inFlight_goOn hletIn n slot ⟨m, call⟩
      · intro h
        have hletIn : (s.letIn m).SlotsDistinct := h
        exact hletIn.goOn slot ⟨m, call⟩
    | _ => cases ht

end Request

/-- A look changes a session by the call that it ends, if it ends one. -/
theorem change_pollWith (change : Call → Call) (slot : String) (s : Session) :
    Change s (s.pollWith change slot).1 (fun _ => 0) fun n =>
      if (s.pollWith change slot).2.isEnding then s.held n slot else 0 := by
  unfold pollWith
  cases hfind : s.find? slot with
  | none => exact .rfl_of_zero (fun _ => rfl) (fun _ => rfl)
  | some flight =>
    -- The call is in hand and its slot is empty, so nobody is abandoned.
    have hended : ∀ n, (if ((s.clear slot).goOn slot
          { flight with call := change flight.call }).2.isEnding then s.held n slot else 0) =
        (s.clear slot).endedByGoing n slot { flight with call := change flight.call } := by
      intro n
      rw [endedByGoing, held_of_find? hfind, held_of_empty (find?_clear slot s)]
    constructor
    · intro n
      simp only [hended]
      exact analyzers_goOn n slot _ (s.clear slot)
    · intro h n
      simp only [hended]
      rw [inFlight_goOn (h.clear slot), ← inFlight_clear h n slot, held_of_find? hfind]
      rfl
    · intro h
      exact (h.clear slot).goOn slot _

/-- A step changes an analyzer by the calls that come in and the calls that end, and by nothing
else. -/
theorem change_step (s : Session) (t : Step) :
    Change s (s.step t).1 (s.entered · t) (s.ended · t) := by
  cases t with
  | analyze m request => exact change_request rfl
  | start slot m request => exact change_request rfl
  | poll slot => exact change_pollWith _ slot s
  | release slot => exact change_pollWith _ slot s
  | drop slot => exact change_drop slot s
  | advance nanoseconds =>
    exact {
      analyzers := fun n => (map_after_zero _).symm
      inFlight := fun _ _ => rfl
      slots := id }

end Session

end PolyLex.Analysis
