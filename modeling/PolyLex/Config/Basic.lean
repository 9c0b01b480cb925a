import PolyLex.Error
import PolyLex.Text.Trim
import PolyLex.Url.Address

/-!
# Configurations

A configuration says how the remote service is reached, which language is meant if none is given and
where results go. `Config.validate` says what it has to meet before it is used, and
`RemoteSettings.resolveKey?` where the key for the remote service comes from.
-/

namespace PolyLex

open Numeric

/-- How the remote service is reached. -/
structure RemoteSettings where
  enabled : Bool := true
  provider : String := "openrouter"
  model : String := "openai/gpt-3.5-turbo"
  apiBase : String := "https://openrouter.ai/api/v1"
  timeoutSecs : Nat := 30
  /-- A number of single precision. -/
  temperature : Binary := Binary.zero .single false
  /-- It is read, and never written. -/
  apiKey : Option String := none
  siteUrl : String := "https://lexical-analyzer.vercel.app"
  siteName : String := "Universal Lexical Analyzer"
  deriving Repr, DecidableEq, Inhabited

/-- How sources are analysed. -/
structure AnalysisSettings where
  /-- The identifier of the language that is meant if none is given. -/
  defaultLanguage : Option String := none
  deriving Repr, DecidableEq, Inhabited

/-- Where results go. -/
structure ExportSettings where
  outputDirectory : String := "."
  deriving Repr, DecidableEq, Inhabited

structure Config where
  version : String := "1.0"
  remote : RemoteSettings := {}
  analysis : AnalysisSettings := {}
  results : ExportSettings := {}
  deriving Repr, DecidableEq, Inhabited

namespace RemoteSettings

/-- The bound on a call, in nanoseconds. -/
def timeout (r : RemoteSettings) : Nat := r.timeoutSecs * Nat.pow 10 9

/-- The variable of the environment that may hold a key. -/
def keyVariable : String := "OPENROUTER_API_KEY"

/-- The text, unless it is blank. -/
def unlessBlank (s : String) : Option String := if Text.isBlankText s then none else some s

/-- The key of the settings or, if that is blank, the one of the environment. -/
def resolveKey? (r : RemoteSettings) (ofEnvironment : Option String) : Option String :=
  (r.apiKey.bind unlessBlank).or (ofEnvironment.bind unlessBlank)

end RemoteSettings

namespace Config

def temperatureLimit : Nat := 2

section Names

variable [Url.DomainNames]

def checkBase (base : String) : Except ConfigProblem Unit :=
  match Url.Address.parse base with
  | .error fault => .error (.baseNotUrl base fault)
  | .ok address =>
    if address.scheme = "http" ∨ address.scheme = "https" then .ok ()
    else .error (.baseScheme address.scheme)

def checkRemote (r : RemoteSettings) : Except ConfigProblem Unit :=
  if !r.temperature.inUnitRange temperatureLimit then .error (.temperature r.temperature)
  else if r.timeoutSecs = 0 then .error .zeroTimeout
  else checkBase r.apiBase

/-- Check a configuration. The first demand that is not met is the one reported. -/
def validate (c : Config) : Except Error Unit :=
  match checkRemote c.remote with
  | .error problem => .error (.config problem)
  | .ok () =>
    match c.analysis.defaultLanguage with
    | none => .ok ()
    | some name =>
      if (Language.ofId? name).isSome then .ok () else .error (.unknownLanguage name)

end Names

end Config

end PolyLex
