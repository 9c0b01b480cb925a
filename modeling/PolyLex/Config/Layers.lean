import PolyLex.Config.Document
import PolyLex.Config.Environment
import PolyLex.Toml.Reader

/-!
# Layers of settings

Settings come in layers, each of which may leave things out: the defaults, files, the environment.
`overlay` lays one layer over another: where both hold a table the tables are laid over each other,
and anywhere else the upper layer counts.
-/

namespace PolyLex.Config

open Json (Value)

mutual
/-- One value laid over another. -/
def overlay (below : Value) : Value → Value
  | .obj members =>
    match below with
    | .obj entries => .obj (overlayMembers entries members)
    -- A table takes the place of what is no table.
    | _ => .obj (overlayMembers [] members)
  | v => v
/-- Members laid over the entries of a table. -/
def overlayMembers (entries : List (String × Value)) : List (String × Value) → List (String × Value)
  | [] => entries
  | (key, v) :: rest =>
    overlayMembers (Keyed.update key (fun old => overlay (old.getD .null) v) entries) rest
end

/-- A layer that holds one setting. -/
def nest (v : Value) : List String → Value
  | [] => v
  | key :: rest => .obj [(key, nest v rest)]

def defaults : Value := (Config.toJson {}).settled

def ofEnvironment (vars : Environment.Variables) : Value :=
  (Environment.settings vars).foldl (fun layer s => overlay layer (nest s.2 s.1)) (.obj [])

/-- The field values of a record in a layer. A list may be longer than the record. -/
def layerRecord? (names : List String) : Value → Option (List (Option Value))
  | .arr items => Json.record? names (.arr (items.take names.length))
  | v => Json.record? names v

/-- The configuration that layers amount to, the lowest first. -/
def ofLayers? (layers : List Value) : Option Config :=
  ofValue? layerRecord? (layers.foldl overlay defaults)

end PolyLex.Config
