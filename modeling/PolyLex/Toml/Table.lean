import PolyLex.Json.Value

/-!
# Tables of TOML documents

A document builds up one table. A table within it is defined by its own header, comes about because
a header further down needs it, or because a key with dots does; and that decides what may still be
added. `Table.define` opens a table by its header, `Table.append` opens the next table of a list,
`Table.put` puts a value under a key with dots.
-/

namespace PolyLex.Toml

open Json (Value)

/-- How a table came about. -/
inductive Origin where
  /-- A header further down needs it. -/
  | implied
  /-- It has a header, or it is a table of a list. -/
  | header
  /-- A key with dots needs it. -/
  | dotted
  deriving Repr, DecidableEq, Inhabited

/-- What stands under a key. -/
inductive Node where
  /-- A value, to which nothing can be added. -/
  | value (v : Value)
  | table (origin : Origin) (entries : List (String × Node))
  /-- The tables of a list. -/
  | tables (items : List (List (String × Node)))
  deriving Inhabited

/-- The entries of a table, in the order of their keys. -/
abbrev Table := List (String × Node)

/-! ### What a table comes to -/

mutual
/-- The value that a node comes to. -/
def Node.close : Node → Value
  | .value v => v
  | .table _ entries => .obj (closeEntries entries)
  | .tables items => .arr (closeTables items)
/-- The members that entries come to. -/
def closeEntries : List (String × Node) → List (String × Value)
  | [] => []
  | (key, node) :: rest => (key, node.close) :: closeEntries rest
/-- The objects that tables come to. -/
def closeTables : List (List (String × Node)) → List Value
  | [] => []
  | entries :: rest => .obj (closeEntries entries) :: closeTables rest
end

namespace Table

/-! ### Headers -/

/-- Change the table at a path of headers, where a list stands for its last table. -/
def within (path : List String) (change : Table → Option Table) (t : Table) : Option Table :=
  match path with
  | [] => change t
  | key :: rest =>
    match Keyed.find? key t with
    -- A table that is only passed through may still get its header.
    | none => (within rest change []).map fun inner => Keyed.insert key (.table .implied inner) t
    | some (.table origin inner) =>
      (within rest change inner).map fun inner => Keyed.insert key (.table origin inner) t
    | some (.tables items) =>
      match items.getLast? with
      | none => none
      | some last => (within rest change last).map fun last =>
          Keyed.insert key (.tables (items.dropLast ++ [last])) t
    | some (.value _) => none

/-- Open the table of a header: it is new, or was only implied. -/
def define (path : List String) (t : Table) : Option Table :=
  match path.getLast? with
  | none => none
  | some key => t.within path.dropLast fun inner =>
    match Keyed.find? key inner with
    | none => some (Keyed.insert key (.table .header []) inner)
    | some (.table .implied entries) => some (Keyed.insert key (.table .header entries) inner)
    | some _ => none

/-- Open the next table of a list. -/
def append (path : List String) (t : Table) : Option Table :=
  match path.getLast? with
  | none => none
  | some key => t.within path.dropLast fun inner =>
    match Keyed.find? key inner with
    | none => some (Keyed.insert key (.tables [[]]) inner)
    | some (.tables items) => some (Keyed.insert key (.tables (items ++ [[]])) inner)
    | some _ => none

/-! ### Keys -/

/-- Put a value under a key that is not taken. -/
def add (key : String) (v : Value) (t : Table) : Option Table :=
  if (Keyed.find? key t).isSome then none else some (Keyed.insert key (.value v) t)

/-- Put a value under a key with dots. The parts before the last name tables that have no header;
the last of these tables came about by dots itself. -/
def put (v : Value) (t : Table) : List String → Option Table
  | [] => none
  | [key] => t.add key v
  | key :: next :: rest =>
    match Keyed.find? key t with
    | none => (put v [] (next :: rest)).map fun inner => Keyed.insert key (.table .dotted inner) t
    | some (.table origin inner) =>
      -- Dots do not reach into a table that has its own header.
      if origin = .header || (rest.isEmpty && origin ≠ .dotted) then none
      else (put v inner (next :: rest)).map fun inner => Keyed.insert key (.table origin inner) t
    | some _ => none

end Table

end PolyLex.Toml
