import PolyLex.Json.Fault
import PolyLex.Language.Basic
import PolyLex.Numeric.Layout
import PolyLex.Text.Duration
import PolyLex.Url.Fault

/-!
# Errors

Every failure is a value of `Error` that names its cause; the wording is `Error.message`. Two
questions are asked of an error besides its wording: was it found before any work was done
(`isPrecondition`), and does the local scanner step in for it (`allowsFallback`)?

A fault is no failure. It is an operation that has no result (`ArithmeticFault`), nobody returns it
and nobody steps in for it: whoever meets it breaks off. `Stop` keeps the two apart where a
computation may come to either.
-/

namespace PolyLex

open Numeric

/-! ### Causes -/

/-- Why a file operation failed. -/
inductive FileProblem where
  | notFound
  | alreadyExists
  | notADirectory
  | isADirectory
  /-- A failure reported in words. -/
  | reported (text : String)
  deriving Repr, DecidableEq, Inhabited

namespace FileProblem

def message : FileProblem → String
  | notFound => "No such file or directory (os error 2)"
  | alreadyExists => "File exists (os error 17)"
  | notADirectory => "Not a directory (os error 20)"
  | isADirectory => "Is a directory (os error 21)"
  | reported text => text

end FileProblem

/-- What sort of demand a listing fails to meet. -/
inductive ViolationKind where
  /-- A required part is absent. -/
  | missingField
  /-- A part has the wrong shape. -/
  | format
  /-- Derived data disagree with what they are derived from. -/
  | consistency
  deriving Repr, DecidableEq, Inhabited

/-- A demand that a listing fails to meet. -/
structure Violation where
  kind : ViolationKind
  /-- The offending part, if one can be named. -/
  field : Option String := none
  reason : String
  deriving Repr, DecidableEq, Inhabited

namespace Violation

def missing (field : String) : Violation :=
  ⟨.missingField, some field, "required field '" ++ field ++ "' is missing"⟩

/-- A part has the wrong shape. -/
def malformed (field : String) (reason : String) : Violation := ⟨.format, some field, reason⟩

def message (v : Violation) : String :=
  match v.field with
  | some field => "Validation failed for '" ++ field ++ "': " ++ v.reason
  | none => "Validation failed: " ++ v.reason

end Violation

/-- Why a request could not be sent. -/
inductive SendProblem where
  /-- A header value holds what no header may hold. -/
  | badHeader
  /-- The server at this address could not be reached. -/
  | unreachable (url : String)
  deriving Repr, DecidableEq, Inhabited

namespace SendProblem

def message : SendProblem → String
  | badHeader => "builder error"
  | unreachable url => "error sending request for url (" ++ url ++ ")"

end SendProblem

/-- Why the remote service gave no reply to work with. -/
inductive RemoteProblem where
  | notSent (problem : SendProblem)
  /-- The service answered with a status other than success; the text is cut short. -/
  | refused (status : String) (body : String)
  /-- A failure reported in words. -/
  | reported (text : String)
  deriving Repr, DecidableEq, Inhabited

namespace RemoteProblem

def message : RemoteProblem → String
  | notSent problem => "OpenRouter request failed: " ++ problem.message
  | refused status body => "OpenRouter API error (" ++ status ++ "): " ++ body
  | reported text => text

end RemoteProblem

/-- Why a reply of the remote service cannot be read. -/
inductive ReplyProblem where
  | noContent
  | undecodable
  /-- The payload is no JSON document; its beginning is shown. -/
  | notJson (fault : Json.Fault) (opening : String)
  /-- A failure reported in words. -/
  | reported (text : String)
  deriving Repr, DecidableEq, Inhabited

namespace ReplyProblem

def message : ReplyProblem → String
  | noContent => "No content in OpenRouter response"
  | undecodable => "Failed to parse OpenRouter response: error decoding response body"
  | notJson fault opening => fault.message ++ ". Content preview: " ++ opening ++ "..."
  | reported text => text

end ReplyProblem

/-- Why a configuration is of no use. -/
inductive ConfigProblem where
  /-- A layer of settings cannot be read. -/
  | source (detail : String)
  /-- A setting has a value of the wrong type. -/
  | mistyped (path : List String) (expected : String)
  | temperature (value : Binary)
  | zeroTimeout
  | baseNotUrl (base : String) (fault : Url.Fault)
  | baseScheme (scheme : String)
  /-- No address can be built on the base. -/
  | endpoint (base : String) (fault : Url.Fault)
  | unknownProvider (name : String)
  | noLanguage
  | noGlobalDirectory
  /-- A number is too large for the document in which it is to be shown. -/
  | outOfRange
  /-- A failure reported in words. -/
  | reported (text : String)
  deriving Repr, DecidableEq, Inhabited

namespace ConfigProblem

/-- Numbers in messages have no exponent, and whole ones no point. -/
def numberLayout : Layout := { wholePoint := false }

/-- Of a value of the wrong type, the value itself and the layer it comes from are said as well;
they are left out. -/
def message : ConfigProblem → String
  | source detail => "Configuration error: " ++ detail
  | mistyped path expected =>
    "Configuration error: invalid type: expected " ++ expected ++ " for key \"" ++
      ".".intercalate path ++ "\""
  | temperature value =>
    "Remote temperature must be between 0.0 and 2.0, got " ++ numberLayout.write .single value
  | zeroTimeout => "Remote timeout_secs must be greater than 0"
  | baseNotUrl base fault =>
    "Remote api_base '" ++ base ++ "' is not a valid URL: " ++ fault.message
  | baseScheme scheme => "Remote api_base must use http or https, got '" ++ scheme ++ "'"
  | endpoint base fault => "Invalid api_base '" ++ base ++ "': " ++ fault.message
  | unknownProvider name => "Unknown provider: " ++ name ++ ". Supported: openrouter"
  | noLanguage =>
    "No language given. Pass --language <python|java|c|cpp|javascript> or set " ++
      "analysis.default_language"
  | noGlobalDirectory => "Cannot determine global config directory"
  | outOfRange => "out-of-range value for u64 type"
  | reported text => text

end ConfigProblem

/-- Why a file is no source file. -/
inductive SourceProblem where
  | extension (path : String)
  | encoding (path : String)
  /-- A failure reported in words. -/
  | reported (text : String)
  deriving Repr, DecidableEq, Inhabited

namespace SourceProblem

/-- The extensions of source files. -/
def extensions : List String := ["py", "java", "c", "cpp", "js", "txt"]

def message : SourceProblem → String
  | extension path =>
    path ++ " (accepted: " ++ " ".intercalate (extensions.map ("." ++ ·)) ++ ")"
  | encoding path => path ++ " is not valid UTF-8"
  | reported text => text

end SourceProblem

/-- Why a document gives no value of the type that is asked for. -/
inductive DocumentProblem where
  | fault (fault : Json.Fault)
  /-- The document is well formed and holds something else. -/
  | shape
  /-- A failure reported in words. -/
  | reported (text : String)
  deriving Repr, DecidableEq, Inhabited

namespace DocumentProblem

def message : DocumentProblem → String
  | fault f => f.message
  | shape => "the document does not have the expected shape"
  | reported text => text

end DocumentProblem

/-! ### Errors -/

inductive Error where
  | file (problem : FileProblem)
  | json (problem : DocumentProblem)
  | unknownLanguage (name : String)
  | emptyInput
  | busy
  | remoteUnavailable (problem : RemoteProblem)
  | malformedReply (problem : ReplyProblem)
  /-- An operation took longer than its bound, given in nanoseconds. -/
  | timeout (operation : String) (nanoseconds : Nat)
  | violation (v : Violation)
  | config (problem : ConfigProblem)
  | unsupportedFile (problem : SourceProblem)
  deriving Repr, DecidableEq, Inhabited

namespace Error

def message : Error → String
  | file problem => "IO error: " ++ problem.message
  | json problem => "JSON error: " ++ problem.message
  | unknownLanguage name =>
    "Unknown language '" ++ name ++ "'. Supported: " ++
      ", ".intercalate (Language.all.map Language.id)
  | emptyInput => "No source code supplied"
  | busy => "An analysis is already in flight for this session"
  | remoteUnavailable problem => "Remote analysis unavailable: " ++ problem.message
  | malformedReply problem => "Malformed remote response: " ++ problem.message
  | timeout operation nanoseconds =>
    "Timeout after " ++ Text.duration nanoseconds ++ ": " ++ operation
  | violation v => v.message
  | config problem => "Config error: " ++ problem.message
  | unsupportedFile problem => "Unsupported file: " ++ problem.message

/-- Is the error found before any work is done? -/
def isPrecondition : Error → Bool
  | unknownLanguage _ | emptyInput | busy => true
  | _ => false

/-- Is the error one of the remote path for which the local scanner steps in? -/
def allowsFallback : Error → Bool
  | remoteUnavailable _ | malformedReply _ | timeout _ _ | violation _ | json _ => true
  | _ => false

/-- A short label for the kind of trouble. -/
def category : Error → String
  | file _ => "IO"
  | json _ | malformedReply _ => "PARSE_ERROR"
  | unknownLanguage _ | emptyInput => "BAD_REQUEST"
  | busy => "BUSY"
  | remoteUnavailable _ => "UNAVAILABLE"
  | timeout _ _ => "TIMEOUT"
  | violation _ => "VALIDATION"
  | config _ => "CONFIG"
  | unsupportedFile _ => "UNSUPPORTED_FILE"

end Error

/-! ### Faults -/

/-- Why an arithmetic operation has no result. -/
inductive ArithmeticFault where
  /-- A sum is no machine word. -/
  | overflow
  deriving Repr, DecidableEq, Inhabited

/-- Why a computation comes to nothing. -/
inductive Stop (ε : Type) where
  /-- It returns a failure. -/
  | failure (e : ε)
  /-- It breaks off. -/
  | fault (fault : ArithmeticFault)
  deriving Repr, DecidableEq, Inhabited

/-- The stop with its failure taken as one of another kind. -/
def Stop.map {ε ε' : Type} (f : ε → ε') : Stop ε → Stop ε'
  | failure e => failure (f e)
  | fault x => fault x

end PolyLex
