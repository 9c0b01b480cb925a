import PolyLex.Cli.Arguments

/-!
# Commands

What a command line asks for: an analysis, the overview of languages, or something about the
configuration.
-/

namespace PolyLex.Cli

inductive Format where
  | text
  | json
  deriving Repr, DecidableEq, Inhabited

/-- The format of a name. Any name but one stands for text. -/
def Format.ofName (name : String) : Format := if name = "json" then .json else .text

/-- What an analysis is asked to do. -/
structure AnalyzeOptions where
  /-- A path, or a dash for the standard input. -/
  file : String
  language : Option String := none
  format : Format := .text
  writesFile : Bool := false
  outputDirectory : Option String := none
  /-- Is the remote service left alone? -/
  staysLocal : Bool := false
  deriving Repr, DecidableEq

/-- What a command line asks for. -/
inductive Command where
  | analyze (options : AnalyzeOptions)
  | languages (format : Format)
  | showConfig (format : Format)
  | configPaths
  | initConfig (ofUser replace : Bool)
  deriving Repr, DecidableEq

/-! ### Levels -/

/-- The options of every level. -/
def common : List Choice := [{ name := "verbose" }, { name := "quiet", letter := some 'q' }]

def formatChoice : Choice := { name := "format", letter := some 'f', takesValue := true }

def topLevel : Level :=
  { options := common, commands := ["analyze", "languages", "config"], hasVersion := true }

def analyzeLevel : Level :=
  { options := common ++ [
      { name := "language", letter := some 'l', takesValue := true },
      formatChoice,
      { name := "export" },
      { name := "out-dir", takesValue := true, allowsEmpty := false },
      { name := "local" }]
    words := 1 }

/-- The level of the overview of languages. -/
def languagesLevel : Level := { options := common ++ [formatChoice] }

def configLevel : Level := { options := common, commands := ["show", "path", "init"] }

/-- The level that shows the configuration. -/
def showLevel : Level := { options := common ++ [formatChoice] }

/-- The level that shows where the configuration is kept. -/
def pathLevel : Level := { options := common }

/-- The level that writes a template. -/
def initLevel : Level :=
  { options := common ++ [{ name := "global", letter := some 'g' }, { name := "force" }] }

/-! ### Reading -/

def Given.format (g : Given) : Format := (g.value? "format").elim .text Format.ofName

/-- What a level was given that has no commands below it. -/
def readLast (level : Level) (words : List String) : Except Refusal Given :=
  (readLevel level {} false words).map Prod.fst

/-- The analysis that some words ask for. -/
def readAnalyze (words : List String) : Except Refusal Command := do
  let g ← readLast analyzeLevel words
  match g.words with
  | [file] =>
    if file.isEmpty then throw (.missingValue "file")
    if g.has "out-dir" && !g.has "export" then throw (.missing "--export")
    return .analyze {
      file
      language := g.value? "language"
      format := g.format
      writesFile := g.has "export"
      outputDirectory := g.value? "out-dir"
      staysLocal := g.has "local" }
  | _ => throw (.missing "<FILE>")

/-- What some words ask about the configuration. -/
def readConfig (words : List String) : Except Refusal Command := do
  match ← readLevel configLevel {} false words with
  | (_, some ("show", rest)) => return .showConfig (← readLast showLevel rest).format
  | (_, some ("path", rest)) =>
    let _ ← readLast pathLevel rest
    return .configPaths
  | (_, some (_, rest)) =>
    let g ← readLast initLevel rest
    return .initConfig (g.has "global") (g.has "force")
  | (_, none) => throw (.missing "a command")

/-- What a command line asks for. -/
def Command.ofWords (words : List String) : Except Refusal Command := do
  match ← readLevel topLevel {} false words with
  | (_, some ("analyze", rest)) => readAnalyze rest
  | (_, some ("languages", rest)) => return .languages (← readLast languagesLevel rest).format
  | (_, some (_, rest)) => readConfig rest
  | (_, none) => throw (.missing "a command")

/-- How the program is used. -/
def usage : String :=
  "\n".intercalate [
    "Usage: lexiscan [--verbose] [-q|--quiet] <COMMAND>",
    "",
    "  analyze <FILE|-> [-l|--language <ID>] [-f|--format text|json]",
    "          [--export [--out-dir <DIR>]] [--local]",
    "  languages [-f|--format text|json]",
    "  config show [-f|--format text|json]",
    "  config path",
    "  config init [-g|--global] [--force]",
    ""]

def versionText : String := "lexiscan 0.1.0\n"

end PolyLex.Cli
