import PolyLex.Config.Misfit
import PolyLex.Files.Tree

/-!
# Where configurations are kept

Settings are kept in two files, one for all projects of a user and one for the project at hand. The
project's file counts over the user's, and the environment over both. A file that is not there is
skipped. A new file is written from a template that says what the defaults say; `Init` is one such
writing, with what it leaves of the files even if it fails.
-/

namespace PolyLex.Config

open Files

/-! ### Paths -/

def fileName : String := "config.toml"

def projectDirectory : String := ".lexiscan"

def projectFile : String := join projectDirectory fileName

/-- The directory of a user's settings, if the environment says where a user keeps settings. -/
def globalDirectory? (vars : Environment.Variables) : Option String :=
  let base := (Environment.find? "XDG_CONFIG_HOME" vars).or
    ((Environment.find? "HOME" vars).map (join · ".config"))
  base.map (join · "lexiscan")

def globalFile? (vars : Environment.Variables) : Option String :=
  (globalDirectory? vars).map (join · fileName)

/-! ### Loading -/

/-- The layer of a file, which is looked for in the directories above as well. Without a file it is
empty. -/
def fileLayer (tree : Tree) (path : String) : Except ConfigProblem Json.Value :=
  match tree.find? path with
  | none => .ok (.obj [])
  | some (.binary _) => .error (.source (path ++ " is not valid UTF-8"))
  | some (.text s) =>
    match Toml.parse? s with
    | some members => .ok (.obj members)
    | none => .error (.source (path ++ " is not a TOML document"))

/-- The layer of a file that is looked for only if its path leads to something. -/
def presentLayer (tree : Tree) (path : String) : Except ConfigProblem Json.Value :=
  if tree.has path then fileLayer tree path else .ok (.obj [])

section Names

variable [Url.DomainNames]

/-- What is said of layers that do not amount to a configuration. -/
def misfit (layers : List Json.Value) : ConfigProblem :=
  (misfit? (layers.foldl overlay defaults)).getD (.mistyped [] "struct Config")

/-- The configuration that layers amount to, if it meets all demands. -/
def check (layers : List Json.Value) : Except Error Config :=
  match ofLayers? layers with
  | none => .error (.config (misfit layers))
  | some c => c.validate.map fun () => c

/-- The configuration of a tree and an environment, with the file of a project. -/
def loadWithProject (tree : Tree) (vars : Environment.Variables) (project : String) :
    Except Error Config := do
  let files := (globalFile? vars).toList ++ [project]
  let layers ← (files.mapM (presentLayer tree)).mapError Error.config
  check (layers ++ [ofEnvironment vars])

/-- The configuration of a tree and an environment. -/
def load (tree : Tree) (vars : Environment.Variables) : Except Error Config :=
  loadWithProject tree vars projectFile

/-- The configuration of one file and nothing else. -/
def loadFile (tree : Tree) (path : String) : Except Error Config := do
  let layer ← (fileLayer tree path).mapError Error.config
  check [layer]

end Names

/-! ### Writing a template -/

def template : String :=
  "\n".intercalate [
    "# lexiscan configuration",
    "# Project settings in .lexiscan/config.toml override the global file.",
    "",
    "version = \"1.0\"",
    "",
    "# Remote analysis gateway (falls back to the local scanner on any failure)",
    "[remote]",
    "enabled = true",
    "provider = \"openrouter\"",
    "model = \"openai/gpt-3.5-turbo\"",
    "api_base = \"https://openrouter.ai/api/v1\"",
    "timeout_secs = 30",
    "temperature = 0.0",
    "# api_key = \"...\"   # or set OPENROUTER_API_KEY",
    "",
    "[analysis]",
    "# default_language = \"python\"",
    "",
    "[export]",
    "output_dir = \".\"",
    ""]

/-- Write the template to a directory, which is made if it is missing. A file that is there stays
unless it is to be replaced. Returns the tree as it is left and the path of the file. -/
def putTemplate (tree : Tree) (directory : String) (replace : Bool) : Tree × Except Error String :=
  let path := join directory fileName
  match tree.reach directory with
  | (tree, some problem) => (tree, .error (.file problem))
  | (tree, none) =>
    if tree.has path && !replace then (tree, .ok path)
    else match tree.write path (.text template) with
      | .ok tree => (tree, .ok path)
      | .error problem => (tree, .error (.file problem))

/-- A command to write the template: for the user, or for the project of a directory. -/
inductive Init where
  | global (replace : Bool)
  | project (base : String) (replace : Bool)
  deriving Repr, DecidableEq

/-- The directory to which the template goes. -/
def Init.directory? (vars : Environment.Variables) : Init → Option String
  | global _ => globalDirectory? vars
  | project base _ => some (join base projectDirectory)

/-- Is a file that is there to be replaced? -/
def Init.replaces : Init → Bool
  | global replace => replace
  | project _ replace => replace

/-- Carry out the command. -/
def Init.run (vars : Environment.Variables) (tree : Tree) (init : Init) :
    Tree × Except Error String :=
  match init.directory? vars with
  | some directory => putTemplate tree directory init.replaces
  | none => (tree, .error (.config .noGlobalDirectory))

end PolyLex.Config
