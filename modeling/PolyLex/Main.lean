import Std.Time
import PolyLex.Cli.Run
import PolyLex.Url.Domain

/-!
# The program

The program reads the surroundings of a run from the system, carries out the command line, writes
the files that the run has changed and prints. What is to be done is decided by `Cli.run`; here
everything is only fetched and put back. There is no transport here, so the remote service is out of
reach and the local scanner steps in.
-/

namespace PolyLex.Cli

open Files

/-! ### Files -/

/-- The paths from the root down to the place that some parts lead to. -/
def way (parts : List String) : List String :=
  (List.range parts.length).map fun n => "/" ++ "/".intercalate (parts.take (n + 1))

/-- The files of settings that a run may read or write, in its own directory and in those above. -/
def settingsFiles (s : Surroundings) : List String :=
  s.tree.places.flatMap fun place =>
    (Config.projectFile :: (Config.globalFile? s.vars).toList).map
      (join ("/" ++ "/".intercalate place))

/-- The source that a command reads and the file to which it may write. -/
def commandFiles (s : Surroundings) : Command → List String
  | .analyze o =>
    let written := do
      let c ← (Config.load s.tree s.vars).toOption
      let l ← Language.ofId? (← (chooseLanguage o.language c).toOption)
      return join (o.outputDirectory.getD c.results.outputDirectory) (exportName l s.today)
    o.file :: written.toList
  | _ => []

def readsInput : Command → Bool
  | .analyze o => o.file = "-"
  | _ => false

/-- Take what stands at a path into the tree, with the directories on the way. -/
def takeIn (tree : Tree) (path : String) : IO Tree := do
  let here ← IO.currentDir
  let mut tree := tree
  for place in way (parts (join here.toString path)) do
    if ← (here / place).isDir then
      tree := (tree.makeDirectory place).toOption.getD tree
    else if ← (here / place).pathExists then
      let content := Content.ofBytes (← IO.FS.readBinFile place)
      tree := (tree.write place content).toOption.getD tree
  return tree

/-- The bytes of a file of a tree. -/
def bytes? (tree : Tree) (path : String) : Option ByteArray :=
  match tree.read path with
  | .ok (.text s) => some s.toUTF8
  | .ok (.binary bytes) => some bytes
  | .error _ => none

/-- Write the file at a path if it has changed. -/
def putBack (old new : Tree) (path : String) : IO Unit := do
  match bytes? new path with
  | none => pure ()
  | some bytes =>
    if bytes? old path != some bytes then
      let directory := parent path
      unless directory.isEmpty do IO.FS.createDirAll directory
      IO.FS.writeBinFile path bytes

/-! ### Surroundings -/

/-- The names of variables that matter, for systems that do not list their variables. -/
def knownVariables : List String :=
  ["HOME", "XDG_CONFIG_HOME", RemoteSettings.keyVariable, "LEXISCAN_VERSION"] ++
    ["ENABLED", "PROVIDER", "MODEL", "API_KEY", "API_BASE", "TIMEOUT_SECS", "TEMPERATURE"].map
      ("LEXISCAN_REMOTE__" ++ ·) ++
    ["LEXISCAN_ANALYSIS__DEFAULT_LANGUAGE", "LEXISCAN_EXPORT__OUTPUT_DIR"]

/-- The variables that a list of the system holds, each ended by a zero. -/
def listedVariables (list : ByteArray) : Environment.Variables :=
  ((Text.splitBy (· == '\x00') ((String.fromUTF8? list).getD "").toList)).filterMap fun entry =>
    match entry.dropWhile (· ≠ '=') with
    | [] => none
    | _ :: value => some (String.ofList (entry.takeWhile (· ≠ '=')), String.ofList value)

def readVariables : IO Environment.Variables := do
  try return listedVariables (← IO.FS.readBinFile "/proc/self/environ")
  catch _ =>
    knownVariables.filterMapM fun name => return (← IO.getEnv name).map ((name, ·))

/-- The day where the program runs, or in Greenwich if the system does not tell its time zone. -/
def readDay : IO String := do
  let rules ← try Std.Time.Database.defaultGetLocalZoneRules
    catch _ => pure Std.Time.TimeZone.ZoneRules.UTC
  let day := (Std.Time.DateTime.ofTimestamp (← Std.Time.Timestamp.now) rules).toPlainDate
  return Date.text ⟨day.year, day.month.val.toNat, day.day.val.toNat⟩

/-- The surroundings in which a command line is carried out. -/
def readSurroundings (words : List String) : IO Surroundings := do
  let directory := (← IO.currentDir).toString
  let bare : Surroundings :=
    { tree := .emptyAt (parts directory)
      vars := ← readVariables
      directory
      today := ← readDay }
  let s := { bare with tree := ← (settingsFiles bare).foldlM takeIn bare.tree }
  match Command.ofWords words with
  | .error _ => return s
  | .ok command =>
    let tree ← (commandFiles s command).foldlM takeIn s.tree
    if readsInput command then
      return { s with tree, input := .ofBytes (← (← IO.getStdin).readBinToEnd) }
    else return { s with tree }

/-! ### Runs -/

/-- Carry out a command line and put back what it has changed. -/
def carryOut (words : List String) : IO Ending := do
  let s ← readSurroundings words
  let e := run s words
  let command := (Command.ofWords words).toOption
  for path in settingsFiles s ++ (command.map (commandFiles s)).getD [] do
    putBack s.tree e.tree path
  return e

end PolyLex.Cli

/-- Carry out the command line. -/
def main (words : List String) : IO UInt32 := do
  let e ← try PolyLex.Cli.carryOut words
    catch e => pure (PolyLex.Cli.failed {} "" (.file (.reported e.toString)))
  IO.print e.output
  IO.eprint e.notes
  return e.exitCode.toUInt32
