import PolyLex.Json.Reader

/-!
# Taking records out of JSON values

A record is written as an object or as the array of its fields in order. In an object every field
may stand once, members of other names do not matter, and a field may be absent; in an array the
last fields may be absent. `record?` brings both forms to one: the field values in order, `none`
for an absent one. What an absent field means is for the record's own reader to say.

These readers look at documents as they are written, so a repeated field is seen.
-/

namespace PolyLex.Json

/-- The value of a field of an object, `some none` if it is absent; `none` if it is repeated. -/
def field? (members : List (String × Value)) (name : String) : Option (Option Value) :=
  match members.filter fun m => m.1 == name with
  | [] => some none
  | [m] => some (some m.2)
  | _ => none

/-- The field values of a record, in the order of the names. -/
def record? (names : List String) : Value → Option (List (Option Value))
  | .obj members => names.mapM (field? members)
  | .arr items =>
    if items.length ≤ names.length then
      some (items.map some ++ List.replicate (names.length - items.length) none)
    else none
  | _ => none

def str? : Value → Option String
  | .str s => some s
  | _ => none

def bool? : Value → Option Bool
  | .bool b => some b
  | _ => none

/-- A value or `null`. -/
def nullable? {α : Type} (read : Value → Option α) : Value → Option (Option α)
  | .null => some none
  | v => (read v).map some

/-- Read a field that may be absent. -/
def fieldOr {α : Type} (absent : α) (read : Value → Option α) : Option Value → Option α
  | none => some absent
  | some v => read v

/-- Read a field that must be there. -/
def required? {α : Type} (read : Value → Option α) : Option Value → Option α
  | none => none
  | some v => read v

end PolyLex.Json
