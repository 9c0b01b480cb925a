import PolyLex.Error
import PolyLex.Files.Path
import PolyLex.Keyed

/-!
# Directory trees

The files that a run can see form a tree. Reading and writing are functions on it, and they fail
for the reasons for which file operations fail: a name is missing, is taken, or names a file where
a directory is needed.

A file holds text or, if its bytes are no text, just bytes.
-/

namespace PolyLex.Files

/-- What a file holds. -/
inductive Content where
  | text (s : String)
  /-- Bytes that encode no text. -/
  | binary (bytes : ByteArray)

/-- The content that some bytes make up. -/
def Content.ofBytes (bytes : ByteArray) : Content :=
  match String.fromUTF8? bytes with
  | some s => .text s
  | none => .binary bytes

inductive Node where
  | file (content : Content)
  | directory (entries : List (String × Node))

instance : Inhabited Node := ⟨.directory []⟩

namespace Node

def empty : Node := directory []

/-- What some names lead to. -/
def get (node : Node) : List String → Except FileProblem Node
  | [] => .ok node
  | name :: rest =>
    match node with
    | file _ => .error .notADirectory
    | directory entries =>
      match Keyed.find? name entries with
      | none => .error .notFound
      | some child => child.get rest

/-- Put a file where some names lead; the directory it is to stand in has to be there. -/
def put (content : Content) (node : Node) : List String → Except FileProblem Node
  | [] =>
    match node with
    | file _ => .ok (file content)
    | directory _ => .error .isADirectory
  | name :: rest =>
    match node with
    | file _ => .error .notADirectory
    | directory entries =>
      match Keyed.find? name entries, rest with
      | none, [] => .ok (directory (Keyed.insert name (file content) entries))
      | none, _ :: _ => .error .notFound
      | some child, rest => do
        let child ← child.put content rest
        return directory (Keyed.insert name child entries)

/-- Make a directory where some names lead, which is not there yet. -/
def addDirectory (node : Node) : List String → Except FileProblem Node
  | [] => .error .alreadyExists
  | name :: rest =>
    match node with
    | file _ => .error .notADirectory
    | directory entries =>
      match Keyed.find? name entries, rest with
      | none, [] => .ok (directory (Keyed.insert name empty entries))
      | none, _ :: _ => .error .notFound
      | some child, rest => do
        let child ← child.addDirectory rest
        return directory (Keyed.insert name child entries)

end Node

/-- The files that a run can see, and the names that lead to the directory it takes place in. -/
structure Tree where
  root : Node := .empty
  directory : List String := []
  deriving Inhabited

namespace Tree

/-! ### Where a path leads -/

/-- Follow the parts of a path from a place; names are kept last first. Every part but the last has
to lead to a directory. -/
def follow (root : Node) (back : List String) : List String → Except FileProblem (List String)
  | [] => .ok back.reverse
  | ".." :: rest => follow root back.tail rest
  -- The last part need not be there.
  | [name] => .ok (name :: back).reverse
  | name :: rest =>
    match root.get (name :: back).reverse with
    | .ok (.directory _) => follow root (name :: back) rest
    | .ok (.file _) => .error .notADirectory
    | .error problem => .error problem

/-- The place at which a path starts, its names last first. -/
def start (tree : Tree) (path : String) : List String :=
  if isAbsolute path then [] else tree.directory.reverse

/-- The names from the root to what a path leads to. The empty path leads nowhere. -/
def locate (tree : Tree) (path : String) : Except FileProblem (List String) :=
  if path.isEmpty then .error .notFound
  else follow tree.root (tree.start path) (parts path)

/-- What a path leads to. -/
def get (tree : Tree) (path : String) : Except FileProblem Node := do
  let node ← tree.root.get (← tree.locate path)
  match node with
  | .file _ => if isDirectoryPath path then .error .notADirectory else .ok node
  | .directory _ => .ok node

/-- Does the path lead to anything? -/
def has (tree : Tree) (path : String) : Bool := (tree.get path).isOk

/-! ### Reading and writing -/

/-- The file that a path leads to. -/
def read (tree : Tree) (path : String) : Except FileProblem Content := do
  match ← tree.get path with
  | .file content => .ok content
  | .directory _ => .error .isADirectory

def write (tree : Tree) (path : String) (content : Content) : Except FileProblem Tree := do
  if isDirectoryPath path then .error .isADirectory
  else
    let root ← tree.root.put content (← tree.locate path)
    return { tree with root }

/-! ### Looking for a file -/

/-- The directories from the one of the run up to the root. -/
def places (tree : Tree) : List (List String) :=
  (List.range (tree.directory.length + 1)).map fun n =>
    tree.directory.take (tree.directory.length - n)

/-- What the file at a path holds. A path that does not start at the root is tried in the directory
of the run and then in those above it. -/
def find? (tree : Tree) (path : String) : Option Content :=
  let tried := if isAbsolute path then [tree.directory] else tree.places
  tried.findSome? fun directory => (read { tree with directory } path).toOption

/-! ### Making directories -/

/-- Make the directories that the parts of a path lead to, as far as they are missing. Where that
fails, because a file is in the way, what was made before stays. -/
def makeDirectories (root : Node) (back : List String) : List String → Node × Option FileProblem
  | [] => (root, none)
  -- The directory before the dots has been made.
  | ".." :: rest => makeDirectories root back.tail rest
  | name :: rest =>
    let names := (name :: back).reverse
    match root.get names with
    | .ok (.directory _) => makeDirectories root (name :: back) rest
    | .ok (.file _) => (root, some (if rest.isEmpty then .alreadyExists else .notADirectory))
    | .error _ =>
      match root.addDirectory names with
      | .ok root => makeDirectories root (name :: back) rest
      | .error problem => (root, some problem)

/-- The tree with a directory and those on the way to it, as far as they can be made, and what was
in the way. The empty path is there already. -/
def reach (tree : Tree) (path : String) : Tree × Option FileProblem :=
  let (root, problem) := makeDirectories tree.root (tree.start path) (parts path)
  ({ tree with root }, problem)

/-- Make a directory and those on the way to it. -/
def makeDirectory (tree : Tree) (path : String) : Except FileProblem Tree :=
  match tree.reach path with
  | (tree, none) => .ok tree
  | (_, some problem) => .error problem

/-- Write a file and make the directories on the way to it. -/
def writeDeep (tree : Tree) (path : String) (content : Content) : Except FileProblem Tree := do
  let tree ← tree.makeDirectory (parent path)
  tree.write path content

/-- A tree with nothing but the directory of the run. -/
def emptyAt (directory : List String) : Tree :=
  { root := directory.foldr (fun name node => .directory [(name, node)]) .empty, directory }

end Tree

end PolyLex.Files
