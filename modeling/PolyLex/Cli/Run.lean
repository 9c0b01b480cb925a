import PolyLex.Calendar
import PolyLex.Cli.Command
import PolyLex.Cli.Display
import PolyLex.Config.Store
import PolyLex.Files.Export
import PolyLex.Files.Source
import PolyLex.Language.Overview
import PolyLex.Remote.Response

/-!
# Running a command

A run takes the surroundings of the program, that is files, environment, input, day and transport,
and returns what it prints and the files as it leaves them. What was printed before an error stays.
A run that breaks off has an exit code of its own.
-/

namespace PolyLex.Cli

open Files

/-- The surroundings of a run. -/
structure Surroundings where
  tree : Tree := {}
  vars : Environment.Variables := []
  /-- What the standard input holds. -/
  input : Content := .text ""
  /-- The path of the directory it runs in. -/
  directory : String := ""
  /-- The day, as it is written in names. -/
  today : String
  transport : Remote.Transport := Remote.noNetwork

/-- What a run leaves behind. -/
structure Ending where
  exitCode : Nat := 0
  output : String := ""
  /-- What goes to the standard error. -/
  notes : String := ""
  tree : Tree

/-- The end of a run that failed, after some output. -/
def failed (tree : Tree) (output : String) (e : Error) : Ending :=
  { exitCode := 1, output, notes := errorText e, tree }

/-- What is said of a fault. The place where it arose, which is said as well, is left out. -/
def faultText : ArithmeticFault → String
  | .overflow => "attempt to add with overflow\n"

/-- The end of a run that broke off, after some output. -/
def broken (tree : Tree) (output : String) (fault : ArithmeticFault) : Ending :=
  { exitCode := 101, output, notes := faultText fault, tree }

/-- The end of a run that came to nothing, after some output. -/
def stopped (tree : Tree) (output : String) : Stop Error → Ending
  | .failure e => failed tree output e
  | .fault fault => broken tree output fault

/-! ### Analyses -/

/-- The language that is asked for: the one given, or the one of the configuration. -/
def chooseLanguage (given : Option String) (c : Config) : Except Error String :=
  match given.or c.analysis.defaultLanguage with
  | some name => .ok name
  | none => .error (.config .noLanguage)

/-- The source that is asked for. A dash stands for the standard input. -/
def readInput (s : Surroundings) (file : String) : Except Error String :=
  if file = "-" then
    match s.input with
    | .text source => .ok source
    | .binary _ => .error (.file (.reported "stream did not contain valid UTF-8"))
  else readSource s.tree file

section Names

variable [Url.DomainNames]

/-- The service that is asked first, if any. -/
def chooseService (s : Surroundings) (c : Config) (staysLocal : Bool) :
    Except Error (Option Remote.Service) :=
  if staysLocal then .ok none
  else Remote.Service.select c.remote (Environment.find? RemoteSettings.keyVariable s.vars)

/-- The report on a source. -/
def report (s : Surroundings) (service : Option Remote.Service) (source language : String) :
    Except (Stop Error) Analysis.Report := do
  let l ← (Analysis.admission false source language).mapError .failure
  match service with
  | none => return Analysis.scanReport source l none
  | some service =>
    (Analysis.conclude Remote.serviceName source l (service.ask s.transport l source)).mapError .fault

/-- What an analysis needs: the configuration, the identifier of the language, the source and the
service that is asked first, if any. -/
def prepare (s : Surroundings) (o : AnalyzeOptions) :
    Except Error (Config × String × String × Option Remote.Service) := do
  let c ← Config.load s.tree s.vars
  let language ← chooseLanguage o.language c
  let source ← readInput s o.file
  let service ← chooseService s c o.staysLocal
  return (c, language, source, service)

/-- The configuration, the identifier of the language and the report of an analysis. -/
def analysis (s : Surroundings) (o : AnalyzeOptions) :
    Except (Stop Error) (Config × String × Analysis.Report) := do
  let (c, language, source, service) ← (prepare s o).mapError .failure
  let r ← report s service source language
  return (c, language, r)

def reportIn (format : Format) (r : Analysis.Report) : String :=
  match format with
  | .json => r.listing.document ++ "\n"
  | .text => reportText r

/-- Write the listing of a report to a file. -/
def writeReport (s : Surroundings) (directory language : String) (r : Analysis.Report) :
    Except Error (String × Tree) :=
  match Language.ofId? language with
  | none => .error (.unknownLanguage language)
  | some l => (exportTo s.tree r.listing l s.today directory).mapError Error.file

def runAnalyze (s : Surroundings) (o : AnalyzeOptions) : Ending :=
  match analysis s o with
  | .error stop => stopped s.tree "" stop
  | .ok (c, language, r) =>
    let output := reportIn o.format r
    if o.writesFile then
      match writeReport s (o.outputDirectory.getD c.results.outputDirectory) language r with
      | .error e => failed s.tree output e
      | .ok (path, tree) =>
        let line := "Exported: " ++ path
        match o.format with
        | .json => { output, notes := line ++ "\n", tree }
        | .text => { output := output ++ lines [success line], tree }
    else { output, tree := s.tree }

/-! ### Everything else -/

def runLanguages (s : Surroundings) : Format → Ending
  | .json => { output := Language.overviewDocument ++ "\n", tree := s.tree }
  | .text => { output := lines Language.overviewLines, tree := s.tree }

/-- A configuration in one of the two formats. -/
def showConfig (c : Config) : Format → Except Error String
  | .json => .ok c.jsonDocument
  | .text => c.tomlDocument.mapError Error.config

def runShow (s : Surroundings) (format : Format) : Ending :=
  match (Config.load s.tree s.vars).bind (showConfig · format) with
  | .error e => failed s.tree "" e
  | .ok document => { output := document ++ "\n", tree := s.tree }

/-- A path with a mark that tells if it is there. -/
def markedPath (tree : Tree) (path : String) : String :=
  (if tree.has path then "✓ " else "✗ ") ++ path

def runPaths (s : Surroundings) : Ending :=
  { output := lines [
      "Configuration paths:",
      "",
      "  Global:  " ++ (Config.globalFile? s.vars).elim "(not available)" (markedPath s.tree),
      "  Project: " ++ markedPath s.tree Config.projectFile]
    tree := s.tree }

/-- Write a template for the user or for the project in the directory of the run. -/
def runInit (s : Surroundings) (ofUser replace : Bool) : Ending :=
  let init : Config.Init := if ofUser then .global replace else .project "" replace
  match init.run s.vars s.tree with
  | (tree, .error e) => failed tree "" e
  | (tree, .ok path) =>
    let whose := if ofUser then "global" else "project"
    let title := success ("Initialized " ++ whose ++ " configuration")
    let path := if ofUser then path else join s.directory path
    { output := lines [title, "  Config:    " ++ path], tree }

def runCommand (s : Surroundings) : Command → Ending
  | .analyze options => runAnalyze s options
  | .languages format => runLanguages s format
  | .showConfig format => runShow s format
  | .configPaths => runPaths s
  | .initConfig ofUser replace => runInit s ofUser replace

/-- Carry out a command line. -/
def run (s : Surroundings) (words : List String) : Ending :=
  match Command.ofWords words with
  | .ok command => runCommand s command
  | .error .help => { output := usage, tree := s.tree }
  | .error .version => { output := versionText, tree := s.tree }
  | .error refusal =>
    { exitCode := 2, notes := "error: " ++ refusal.message ++ "\n\n" ++ usage, tree := s.tree }

end Names

end PolyLex.Cli
