import PolyLex.Analysis.Report

/-!
# Calls in flight

A call that was let in waits for the remote service. Time is counted in nanoseconds and only looked
at when the call is polled. A poll first asks for the reply and then looks at the deadline, so that
a reply that is there wins over a deadline that has passed:

* `Call.poll` — what a poll at a moment finds;
* `Call.wake`, `Call.conclude` — the moment at which a call that is polled whenever something is due
  comes to its end, and what it ends with then: its report, or a fault.
-/

namespace PolyLex.Analysis

/-- The remote service as the analysis sees it. -/
structure Gateway where
  name : String
  /-- How long a call may take. -/
  timeout : Nat
  deriving Repr, DecidableEq, Inhabited

/-- What the remote service does with a call. -/
structure Conduct where
  /-- Does it wait until it is let go? -/
  gated : Bool := false
  /-- How long it takes from the poll that finds it let go. -/
  delay : Nat := 0
  /-- How it ends. -/
  reply : Except Error String

structure Call where
  gateway : Gateway
  source : String
  language : Language
  conduct : Conduct
  /-- The moment of the start. -/
  startedAt : Nat
  /-- Was the service let go? -/
  released : Bool := false
  /-- When the reply is there, once that is settled. -/
  dueAt : Option Nat := none

namespace Call

/-- The moment from which a call without a reply is given up. -/
def deadline (c : Call) : Nat := c.startedAt + c.gateway.timeout

/-- Is the service free to work on the reply? -/
def isOpen (c : Call) : Bool := !c.conduct.gated || c.released

/-- Ask for the reply: the first to ask once the service is free settles when it is there. -/
def ask (now : Nat) (c : Call) : Call :=
  if c.dueAt.isNone && c.isOpen then { c with dueAt := some (now + c.conduct.delay) } else c

def isReady (now : Nat) (c : Call) : Bool := c.dueAt.any (· ≤ now)

def isLate (now : Nat) (c : Call) : Bool := c.deadline ≤ now

/-- What a call that takes too long fails with. -/
def timeout (c : Call) : Error := .timeout "remote analysis" c.gateway.timeout

/-- What a call ends with that ends now: from the reply if it is there. -/
def conclude (now : Nat) (c : Call) : Except ArithmeticFault Report :=
  if c.isReady now then Analysis.conclude c.gateway.name c.source c.language c.conduct.reply
  else .ok (scanReport c.source c.language (some c.timeout))

/-- Look at a call: the call as it goes on, and what it ends with if it ends. -/
def poll (now : Nat) (c : Call) : Call × Option (Except ArithmeticFault Report) :=
  let asked := c.ask now
  -- The call asks before it looks at the deadline: a reply that is due by then counts.
  (asked, if asked.isReady now || asked.isLate now then some (asked.conclude now) else none)

def release (c : Call) : Call := { c with released := true }

/-- The first moment from now on at which something is due. -/
def wake (now : Nat) (c : Call) : Nat :=
  -- Before the reply is settled there is only the deadline to wait for.
  max now (c.dueAt.elim c.deadline (min c.deadline))

end Call

end PolyLex.Analysis
