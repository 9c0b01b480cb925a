import PolyLex.Files.Tree

/-!
# Source files

Sources are read from files with one of a few extensions, in any case of letters. The extension
does not tell the language. The text is handed over as it is.
-/

namespace PolyLex.Files

/-- May the path be that of a source file? -/
def isSource (path : String) : Bool :=
  match extension? path with
  | some ext => SourceProblem.extensions.contains (Text.lowerAsciiText ext)
  | none => false

def readSource (tree : Tree) (path : String) : Except Error String :=
  if !isSource path then .error (.unsupportedFile (.extension path))
  else match tree.read path with
    | .error problem => .error (.file problem)
    | .ok (.text s) => .ok s
    | .ok (.binary _) => .error (.unsupportedFile (.encoding path))

end PolyLex.Files
