import PolyLex.Config.Basic
import PolyLex.Json.Decode
import PolyLex.Toml.Printer

/-!
# Configurations as documents

A configuration is one value of records: `Config.toJson`. It is shown as a JSON document or as a
TOML document of that value, never with the key for the remote service. Reading goes the other way:
each setting that is absent has its default, and settings that are not known do not matter.
-/

namespace PolyLex.Config

open Json (Value)
open Numeric

/-! ### Writing -/

def toJson (c : Config) : Value :=
  .obj [
    ("version", .str c.version),
    ("remote", .obj [
      ("enabled", .bool c.remote.enabled),
      ("provider", .str c.remote.provider),
      ("model", .str c.remote.model),
      ("api_base", .str c.remote.apiBase),
      ("timeout_secs", .nat c.remote.timeoutSecs),
      ("temperature", .real .single c.remote.temperature),
      ("site_url", .str c.remote.siteUrl),
      ("site_name", .str c.remote.siteName)]),
    ("analysis", .obj [("default_language", .strOrNull c.analysis.defaultLanguage)]),
    ("export", .obj [("output_dir", .str c.results.outputDirectory)])]

def jsonDocument (c : Config) : String := c.toJson.pretty

/-- The TOML document of a configuration. A setting without a value is left out, and there is no
document if the bound on a call is too large for it. -/
def tomlDocument (c : Config) : Except ConfigProblem String :=
  (Toml.document? (c.toJson.members?.getD [])).elim (.error .outOfRange) .ok

/-! ### Reading -/

/-- A number of single precision, from a whole number or another floating one. -/
def single? : Value → Option Binary
  | .int (.ofNat n) => some (Binary.ofNat .single n)
  | .int (.negSucc n) => some (Binary.ofNat .single (n + 1)).neg
  | .real _ x => some (x.convert .single)
  | _ => none

/-- How a format writes records: the values of the fields in their order. -/
abbrev RecordReader := List String → Value → Option (List (Option Value))

/-- A field that has a default. -/
def setting {α : Type} (default : α) (read : Value → Option α) : Option Value → Option α :=
  Json.fieldOr default read

/-- The settings of the remote service that a value stands for. -/
def remote? (record? : RecordReader) (v : Value) : Option RemoteSettings := do
  let default : RemoteSettings := {}
  let [enabled, provider, model, apiBase, timeoutSecs, temperature, apiKey, siteUrl, siteName] ←
    record? ["enabled", "provider", "model", "api_base", "timeout_secs", "temperature", "api_key",
      "site_url", "site_name"] v | none
  return {
    enabled := ← setting default.enabled Json.bool? enabled
    provider := ← setting default.provider Json.str? provider
    model := ← setting default.model Json.str? model
    apiBase := ← setting default.apiBase Json.str? apiBase
    timeoutSecs := ← setting default.timeoutSecs Value.nat? timeoutSecs
    temperature := ← setting default.temperature single? temperature
    apiKey := ← setting none (Json.nullable? Json.str?) apiKey
    siteUrl := ← setting default.siteUrl Json.str? siteUrl
    siteName := ← setting default.siteName Json.str? siteName }

/-- The settings of the analysis that a value stands for. -/
def analysis? (record? : RecordReader) (v : Value) : Option AnalysisSettings := do
  let [defaultLanguage] ← record? ["default_language"] v | none
  return { defaultLanguage := ← setting none (Json.nullable? Json.str?) defaultLanguage }

/-- The settings of the results that a value stands for. -/
def results? (record? : RecordReader) (v : Value) : Option ExportSettings := do
  let default : ExportSettings := {}
  let [outputDirectory] ← record? ["output_dir"] v | none
  return { outputDirectory := ← setting default.outputDirectory Json.str? outputDirectory }

/-- The configuration that a value stands for. -/
def ofValue? (record? : RecordReader) (v : Value) : Option Config := do
  let default : Config := {}
  let [version, remote, analysis, results] ←
    record? ["version", "remote", "analysis", "export"] v | none
  return {
    version := ← setting default.version Json.str? version
    remote := ← setting default.remote (remote? record?) remote
    analysis := ← setting default.analysis (analysis? record?) analysis
    results := ← setting default.results (results? record?) results }

/-- Read a JSON document with a reader of its value. -/
def readJson {α : Type} (read : Value → Option α) (text : String) : Except Error α :=
  match Json.readRecord text with
  | .error fault => .error (.json (.fault fault))
  | .ok v =>
    match read v with
    | some a => .ok a
    | none => .error (.json .shape)

def ofDocument (text : String) : Except Error Config := readJson (ofValue? Json.record?) text

end PolyLex.Config

namespace PolyLex.RemoteSettings

/-- The settings of a JSON document. -/
def ofDocument (text : String) : Except Error RemoteSettings :=
  Config.readJson (Config.remote? Json.record?) text

end PolyLex.RemoteSettings
