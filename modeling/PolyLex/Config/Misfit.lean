import PolyLex.Config.Layers
import PolyLex.Error

/-!
# Values of the wrong type

Where layers do not amount to a configuration, it is said which setting is to blame and what is
expected there. The settings are gone through in the order in which they stand, those of a table in
the order of their keys, and the first one that does not fit is named. What is no setting is passed
over.
-/

namespace PolyLex.Config

open Json (Value)

/-- A search for what does not fit in a value that stands at a path. -/
abbrev MisfitSearch := List String → Value → Option ConfigProblem

/-- A value that cannot be read does not fit. -/
def misfitValue {α : Type} (expected : String) (read : Value → Option α) : MisfitSearch :=
  fun path v => if (read v).isSome then none else some (.mistyped path expected)

/-- The first field of a record that does not fit. A record is a table or the list of its fields. -/
def misfitRecord (name : String) (fields : List (String × MisfitSearch)) : MisfitSearch
  | path, .obj members => members.findSome? fun m =>
      (Keyed.find? m.1 fields).bind fun search => search (path ++ [m.1]) m.2
  | path, .arr items => (fields.zip items).findSome? fun m => m.1.2 path m.2
  | path, _ => some (.mistyped path ("struct " ++ name))

def misfitText : MisfitSearch := misfitValue "a string" Json.str?

def misfitTextOrNull : MisfitSearch := misfitValue "a string" (Json.nullable? Json.str?)

def misfitRemote : MisfitSearch :=
  misfitRecord "RemoteConfig" [
    ("enabled", misfitValue "a boolean" Json.bool?),
    ("provider", misfitText),
    ("model", misfitText),
    ("api_base", misfitText),
    ("timeout_secs", misfitValue "u64" Value.nat?),
    ("temperature", misfitValue "f32" single?),
    ("api_key", misfitTextOrNull),
    ("site_url", misfitText),
    ("site_name", misfitText)]

/-- The first setting of a configuration that does not fit. -/
def misfit? : Value → Option ConfigProblem :=
  misfitRecord "Config" [
    ("version", misfitText),
    ("remote", misfitRemote),
    ("analysis", misfitRecord "AnalysisConfig" [("default_language", misfitTextOrNull)]),
    ("export", misfitRecord "ExportConfig" [("output_dir", misfitValue "path string" Json.str?)])]
    []

end PolyLex.Config
