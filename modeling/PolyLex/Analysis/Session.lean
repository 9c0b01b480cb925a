import PolyLex.Analysis.Call
import PolyLex.Keyed

/-!
# Sessions

A session holds analyzers, a clock and the calls in flight. An analyzer lets in one call at a time:
it is busy from the moment a call is let in until the call ends or is abandoned. Calls are kept in
slots that all analyzers share.

* `Session.analyze` runs a call to its end and moves the clock as far as that takes.
* `Session.start`, `Session.poll`, `Session.release` and `Session.drop` work on the call of a slot.
* `Session.step` does one of these, `Session.run` any number of them.
-/

namespace PolyLex.Analysis

/-- Whoever lets calls in, one at a time. -/
structure Analyzer where
  gateway : Option Gateway := none
  busy : Bool := false
  /-- How many calls reached the remote service. -/
  reached : Nat := 0
  deriving Repr, DecidableEq, Inhabited

def Analyzer.hasRemote (a : Analyzer) : Bool := a.gateway.isSome

/-- What is asked for. -/
structure Request where
  source : String
  language : String
  /-- What the remote service does with the call, should it be reached. -/
  conduct : Conduct

/-- A call in flight and the number of its analyzer. -/
structure Flight where
  analyzer : Nat
  call : Call

/-- Analyzers, a clock and calls in flight. -/
structure Session where
  analyzers : List Analyzer
  clock : Nat := 0
  /-- At most one flight for each name. -/
  slots : List (String × Flight) := []

/-- What comes of a step. -/
inductive Outcome where
  | rejected (error : Error)
  | finished (report : Report)
  /-- The call broke off. -/
  | faulted (fault : ArithmeticFault)
  | pending
  /-- The slot is empty, or there is no such analyzer. -/
  | noCall
  /-- The step asks for nothing. -/
  | nothing
  deriving Inhabited

/-- What comes of a step in which a call ends. -/
def Outcome.ofEnding : Except ArithmeticFault Report → Outcome
  | .ok report => finished report
  | .error fault => faulted fault

namespace Session

/-! ### Analyzers and slots -/

def modify (n : Nat) (f : Analyzer → Analyzer) (s : Session) : Session :=
  { s with analyzers := s.analyzers.modify n f }

/-- Free an analyzer for the next call. -/
def free (n : Nat) (s : Session) : Session := s.modify n fun a => { a with busy := false }

def find? (slot : String) (s : Session) : Option Flight := Keyed.find? slot s.slots

def clear (slot : String) (s : Session) : Session :=
  { s with slots := s.slots.filter fun e => e.1 ≠ slot }

def put (slot : String) (flight : Flight) (s : Session) : Session :=
  { s.clear slot with slots := (slot, flight) :: (s.clear slot).slots }

/-- Abandon the call of a slot, which frees its analyzer. -/
def drop (slot : String) (s : Session) : Session :=
  match s.find? slot with
  | some flight => (s.clear slot).free flight.analyzer
  | none => s

/-! ### Calls -/

/-- What becomes of a request that was let in: a call, or at once a report. -/
inductive Entry where
  | call (c : Call)
  | report (r : Report)

/-- Enter a request at an analyzer. A call reaches the remote service and keeps the analyzer busy; a
report is there without either. -/
def enter (n : Nat) (request : Request) (s : Session) : Except Outcome (Session × Entry) :=
  match s.analyzers[n]? with
  | none => .error .noCall
  | some a =>
    match admission a.busy request.source request.language with
    | .error e => .error (.rejected e)
    | .ok language =>
      match a.gateway with
      | none => .ok (s, .report (scanReport request.source language none))
      | some gateway =>
        -- The slot is taken by the step that admits the request, before anything is asked.
        .ok (s.modify n fun a => { a with busy := true, reached := a.reached + 1 },
          .call {
            gateway, language
            source := request.source
            conduct := request.conduct
            startedAt := s.clock })

/-- Go on with a call that was taken out of its slot: it goes back there, or ends, if only in a
fault, and frees its analyzer. -/
def goOn (slot : String) (flight : Flight) (s : Session) : Session × Outcome :=
  match flight.call.poll s.clock with
  | (_, some ending) => (s.free flight.analyzer, .ofEnding ending)
  | (call, none) => ((s.drop slot).put slot { flight with call }, .pending)

/-- Enter a request and go as far as it goes without waiting. A call that waits is kept in the slot,
whose former call is abandoned. -/
def start (slot : String) (n : Nat) (request : Request) (s : Session) : Session × Outcome :=
  match s.enter n request with
  | .error outcome => (s, outcome)
  | .ok (s, .report r) => (s, .finished r)
  | .ok (s, .call c) => s.goOn slot ⟨n, c⟩

/-- Look at the call of a slot, after a change. -/
def pollWith (change : Call → Call) (slot : String) (s : Session) : Session × Outcome :=
  match s.find? slot with
  | some flight => (s.clear slot).goOn slot { flight with call := change flight.call }
  | none => (s, .noCall)

/-- Look at the call of a slot. -/
def poll (slot : String) (s : Session) : Session × Outcome := s.pollWith (fun c => c) slot

/-- Let the service go on with the call of a slot, and look at the call. -/
def release (slot : String) (s : Session) : Session × Outcome := s.pollWith Call.release slot

/-- Enter a request and run it to its end. -/
def analyze (n : Nat) (request : Request) (s : Session) : Session × Outcome :=
  match s.enter n request with
  | .error outcome => (s, outcome)
  | .ok (s, .report r) => (s, .finished r)
  | .ok (s, .call c) =>
    let asked := c.ask s.clock
    let now := asked.wake s.clock
    ({ s.free n with clock := now }, .ofEnding (asked.conclude now))

/-! ### Steps -/

/-- What can be done with a session. -/
inductive Step where
  | analyze (analyzer : Nat) (request : Request)
  | start (slot : String) (analyzer : Nat) (request : Request)
  | poll (slot : String)
  | release (slot : String)
  | drop (slot : String)
  /-- Time goes by. -/
  | advance (nanoseconds : Nat)

def step (s : Session) : Step → Session × Outcome
  | .analyze n request => s.analyze n request
  | .start slot n request => s.start slot n request
  | .poll slot => s.poll slot
  | .release slot => s.release slot
  | .drop slot => (s.drop slot, .nothing)
  | .advance nanoseconds => ({ s with clock := s.clock + nanoseconds }, .nothing)

def run (s : Session) (steps : List Step) : Session := steps.foldl (fun s t => (s.step t).1) s

end Session

end PolyLex.Analysis
