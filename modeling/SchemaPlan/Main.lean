import SchemaPlan.Command.Run
import SchemaPlan.Time.Clock
import Std.Time.DateTime.Timestamp

/-!
# The command line

Reads the arguments, the environment and the files that a command may look at, runs the command, and
writes what it reports.  There is no database to talk to here, so no connection is ever opened.
-/

set_option autoImplicit false

namespace SchemaPlan.Command

open Storage

/-- A database that can not be reached. -/
def noServer : Server Unit where
  connect _ _ _ := (.error .unreachable, ())
  answer _ _ := (.error .unreachable, ())

/-- The variables that settings are read from. -/
def variableNames : List String :=
  ["DATABASE_URL", "SCHEMATA_SCHEMA_FILE", "SCHEMATA_MIGRATIONS_DIR", "SCHEMATA_PG_SCHEMA"]

/-- Reads the environment. -/
def readEnvironment : IO (List (String × String)) :=
  variableNames.filterMapM fun name => do
    let value ← IO.getEnv name
    pure (value.map fun value => (name, value))

/-- Adds the file at a path, if it can be read. -/
def addFile (files : FileTree) (path : String) : IO FileTree := do
  try
    pure (files.add path (← IO.FS.readFile path))
  catch _ => pure files

/-- Adds the migrations of a directory, if there is one. -/
def addDirectory (files : FileTree) (directory : String) : IO FileTree := do
  try
    let entries ← ((← IO.currentDir) / directory).readDir
    let files := (files.makeDirectories directory).result.toOption.getD files
    entries.toList.foldlM
      (fun files entry => addFile files (Storage.join directory entry.fileName)) files
  catch _ => pure files

/-- Reads the files that a command with some settings looks at. -/
def readFiles (settings : Settings) : IO FileTree := do
  addDirectory (← addFile {} settings.schemaFile) settings.migrationsDirectory

/-- Writes the directories and files that are new or changed. -/
def writeChanges (before after : FileTree) : IO Unit := do
  for way in after.directories.reverse do
    if !before.isDirectory way then IO.FS.createDirAll (pathOf way)
  for (way, text) in after.files.reverse do
    if before.content? way != some text then IO.FS.writeFile (pathOf way) text

/-- The instant that the clock shows. -/
def readClock : IO Time.Instant := do
  let nanoseconds := (← Std.Time.Timestamp.now).toNanosecondsSinceUnixEpoch.val.toNat
  pure (.ofClock (nanoseconds / 1000000000) (Fin.ofNat _ nanoseconds))

/-- Runs the command of some arguments and gives the exit code. -/
def execute (arguments : List String) : IO UInt32 := do
  match CommandLine.read (← readEnvironment) arguments with
  | .error error =>
    IO.eprintln ("error: " ++ error.message)
    pure 2
  | .ok (settings, request) =>
    let files ← readFiles settings
    let report := report files (request.run settings files (← readClock) noServer ())
    report.log.forM fun line => IO.eprintln line
    IO.print report.standardOutput
    writeChanges files report.files
    pure report.exitCode.toUInt32

end SchemaPlan.Command

def main (arguments : List String) : IO UInt32 :=
  SchemaPlan.Command.execute arguments
