import PolyLex.Text.Trim

/-!
# Paths

A path is a text; slashes separate its parts. Joining and extensions are functions on that text.
Where a path leads is decided by its parts, of which empty ones and single dots do not matter.
-/

namespace PolyLex.Files

/-- The parts of a path that name something, two dots included. -/
def parts (path : String) : List String :=
  (Text.splitBy (· == '/') path.toList).filterMap fun part =>
    if part = [] ∨ part = ['.'] then none else some (String.ofList part)

def isAbsolute (path : String) : Bool := path.toList.head? = some '/'

/-- A path seen from a directory. -/
def join (directory path : String) : String :=
  if isAbsolute path || directory.isEmpty then path
  else if directory.toList.getLast? = some '/' then directory ++ path
  else directory ++ "/" ++ path

/-- Can the path lead to a directory only? It can if nothing or a single dot follows its last
slash. -/
def isDirectoryPath (path : String) : Bool :=
  match (Text.splitBy (· == '/') path.toList).reverse with
  | last :: _ :: _ => last = [] || last = ['.']
  | _ => false

/-- The path of the directory in which a path stands. -/
def parent (path : String) : String :=
  (if isAbsolute path then "/" else "") ++ "/".intercalate (parts path).dropLast

/-- The part of a name behind its last dot, unless that dot is all there is before it. -/
def extensionOf? (name : List Char) : Option (List Char) :=
  let back := name.reverse
  let after := back.takeWhile (· ≠ '.')
  match back.dropWhile (· ≠ '.') with
  | [] => none
  | _ :: before => if before = [] then none else some after.reverse

/-- The extension of a path: that of its last part. Two dots have none, and a name that only
starts with a dot has none. -/
def extension? (path : String) : Option String := do
  let name ← (parts path).getLast?
  if name = ".." then none
  else (extensionOf? name.toList).map String.ofList

end PolyLex.Files
