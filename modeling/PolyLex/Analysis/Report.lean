import PolyLex.Listing.Check
import PolyLex.Remote.Accepted
import PolyLex.Remote.Payload
import PolyLex.Scan.Cursor

/-!
# Reports

An analysis is asked for by a source and the identifier of a language. `admission` says whether
there is anything to do; past that point there is always a report. The reply of the remote service
is used if it can be read and meets all demands (`readReply`); whatever goes wrong with it, the
local scanner steps in (`scanReport`) and the report keeps the failure as its reason. Only a fault
in reading the reply leaves the analysis without a report.

## What the layers are

* **Admission** (`admission`): a blank source, an unknown language, an analysis in flight, in this
  order.
* **Remote** (`readReply`): payload, demands, report.
* **Local** (`scanReport`): scan, check, report. A listing that failed the check would be replaced
  by a degraded one.
-/

namespace PolyLex.Analysis

/-! ### Reports -/

/-- Who drew up a listing. -/
inductive Origin where
  /-- The remote service of this name. -/
  | remote (name : String)
  | scanner
  /-- Nobody: the listing is a stand-in. -/
  | degraded
  deriving Repr, DecidableEq, Inhabited

def Origin.text : Origin → String
  | remote name => "remote (" ++ name ++ ")"
  | scanner => "local"
  | degraded => "degraded"

/-- A listing and how it came about. -/
structure Report where
  listing : Listing
  origin : Origin
  /-- Does the summary agree with the tokens? Only a remote summary may not. -/
  consistent : Bool := true
  /-- Why the remote service was given up, or why the listing is degraded. -/
  failure : Option Error := none
  deriving DecidableEq, Inhabited

/-- The wording of the failure behind a report. -/
def Report.fallbackReason (r : Report) : Option String := r.failure.map Error.message

/-! ### Admission -/

/-- The language of an analysis that is let in. What is wrong with the input counts before what is
wrong with the moment. -/
def admission (busy : Bool) (source language : String) : Except Error Language :=
  if Text.isBlankText source then .error .emptyInput
  else match Language.ofId? language with
    | none => .error (.unknownLanguage language)
    | some l => if busy then .error .busy else .ok l

/-! ### The two ways to a report -/

def degradedMessage : String := "Lexical analysis failed; no usable result was produced"

/-- The report of the local scanner, with the failure that called for it. -/
def scanReport (source : String) (language : Language) (failure : Option Error) : Report :=
  let listing := language.profile.scan source
  match listing.check with
  | .ok () => { listing, origin := .scanner, failure }
  | .error v =>
    { listing := Listing.degraded degradedMessage, origin := .degraded
      failure := failure.or (some (.violation v)) }

/-- The report that a reply of the remote service leads to by itself. -/
def readReply (name : String) (reply : Except Error String) : Except (Stop Error) Report := do
  let content ← reply.mapError .failure
  let value ← (Remote.extract content).mapError .failure
  let accepted ← (Remote.accept value).mapError (.map Error.violation)
  return {
    listing := accepted.listing
    origin := .remote name
    consistent := accepted.consistent }

/-- The report after a reply: its own if it leads to one, else the local scanner's. -/
def conclude (name : String) (source : String) (language : Language) (reply : Except Error String) :
    Except ArithmeticFault Report :=
  match readReply name reply with
  | .ok report => .ok report
  | .error (.failure e) => .ok (scanReport source language (some e))
  | .error (.fault fault) => .error fault

end PolyLex.Analysis
