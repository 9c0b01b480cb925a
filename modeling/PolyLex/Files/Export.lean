import PolyLex.Files.Tree
import PolyLex.Language.Basic
import PolyLex.Listing.Document

/-!
# Exported listings

A listing is exported as a document named for its language and the day.
-/

namespace PolyLex.Files

/-- The name of the file to which a listing is exported. The day is given in words. -/
def exportName (language : Language) (day : String) : String :=
  "lexical-analysis-" ++ language.id ++ "-" ++ day ++ ".json"

/-- Write a listing to a directory, which is made if it is not there. Returns the path of the
file. -/
def exportTo (tree : Tree) (l : Listing) (language : Language) (day directory : String) :
    Except FileProblem (String × Tree) := do
  let tree ← tree.makeDirectory directory
  let path := join directory (exportName language day)
  let tree ← tree.write path (.text l.document)
  return (path, tree)

end PolyLex.Files
