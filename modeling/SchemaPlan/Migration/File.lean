import SchemaPlan.Dialect.Script
import SchemaPlan.Migration.Error
import SchemaPlan.Text.Blank

/-!
# Migration files

A migration file is an SQL script behind a short header of comment lines: name, time and checksum,
then a blank line.  The name starts with the time of creation, so names ascend as time does.

* `MigrationFile.render` writes a file and `MigrationFile.parse` reads it,
* `MigrationFile.verify` compares the script with the checksum of the header,
* `MigrationFile.writing` adds a file to a directory and `discover` reads all files of a directory.
-/

set_option autoImplicit false

namespace SchemaPlan

/-- A migration. -/
structure MigrationFile where
  name : String
  generatedAt : Time.Instant
  /-- The checksum that was written down. -/
  checksum : String
  /-- The script. -/
  body : String
deriving DecidableEq, Repr

namespace MigrationFile

/-- Letters and digits in lower case; every run of other characters is one underscore. -/
def slugChars : List Char → List Char
  | [] => []
  | c :: r =>
    if c.isAlphanum then c.toLower :: slugChars r
    else match slugChars r with
      | '_' :: rest => '_' :: rest
      | rest => '_' :: rest

/-- A description as part of a file name; underscores at the ends are dropped. -/
def slug (description : String) : String :=
  let inner := (slugChars description.toList).dropWhile (· = '_')
  let slug := (inner.reverse.dropWhile (· = '_')).reverse
  if slug.isEmpty then "migration" else String.ofList slug

/-- The migration of a script. -/
def ofScript (description : String) (script : Script) (generatedAt : Time.Instant) :
    MigrationFile where
  name := generatedAt.stamp ++ "_" ++ slug description
  generatedAt := generatedAt
  checksum := script.checksum
  body := script.sql

/-- The name of the file. -/
def fileName (file : MigrationFile) : String :=
  file.name ++ ".sql"

/-- How the line of the name starts. -/
def nameStart : String := "-- schemata migration: "

/-- How the line of the time starts. -/
def timeStart : String := "-- generated: "

/-- How the line of the checksum starts. -/
def checksumStart : String := "-- checksum: "

/-- The text of the file. -/
def render (file : MigrationFile) : String :=
  nameStart ++ file.name ++ "\n" ++ timeStart ++ file.generatedAt.text ++ "\n" ++
    checksumStart ++ file.checksum ++ "\n\n" ++ file.body

/-- The checksum of the script as it is. -/
def actualChecksum (file : MigrationFile) : String :=
  Digest.Sha256.textDigest file.body

/-- Whether the script is the one whose checksum was written down. -/
def isIntact (file : MigrationFile) : Bool :=
  file.actualChecksum == file.checksum

/-- Refuses a script that is not the one whose checksum was written down. -/
def verify (file : MigrationFile) : Except MigrationError Unit :=
  if file.isIntact then .ok ()
  else .error (.checksumMismatch file.name file.checksum file.actualChecksum)

/-- What a header has said so far. -/
structure Header where
  name : Option String := none
  generatedAt : Option Time.Instant := none
  checksum : Option String := none
deriving DecidableEq, Repr

/-- The text behind the start of a line, without blanks at its ends. -/
def valueOf? (start : String) (line : List Char) : Option String :=
  (Text.after? start.toList line).map fun rest => String.ofList (Text.trim rest)

/-- Reads one line of a header.  A later line wins; other lines say nothing. -/
def Header.read (header : Header) (line : List Char) : Except HeaderFault Header :=
  match valueOf? nameStart line with
  | some name => .ok { header with name := some name }
  | none =>
    match valueOf? timeStart line with
    | some time =>
      match Time.Instant.parse time with
      | .ok instant => .ok { header with generatedAt := some instant }
      | .error cause => .error (.invalidTime cause)
    | none =>
      match valueOf? checksumStart line with
      | some checksum => .ok { header with checksum := some checksum }
      | none => .ok header

/-- The migration of a header and a script. -/
def Header.file (header : Header) (body : String) : Except HeaderFault MigrationFile :=
  match header.name, header.generatedAt, header.checksum with
  | none, _, _ => .error .noName
  | _, none, _ => .error .noTime
  | _, _, none => .error .noChecksum
  | some name, some generatedAt, some checksum => .ok ⟨name, generatedAt, checksum, body⟩

/-- Reads the text of a file. -/
def read (contents : String) : Except HeaderFault MigrationFile :=
  match Text.cutAt? ['\n', '\n'] contents.toList with
  | none => .error .noBlankLine
  | some (header, body) => do
    let header ← (Text.pieces '\n' header).foldlM Header.read {}
    header.file (String.ofList body)

/-- Reads the text of the file at a path. -/
def parse (path contents : String) : Except MigrationError MigrationFile :=
  (read contents).mapError (.malformedFile path)

/-- Reads the file at a path. -/
def load (tree : Storage.FileTree) (path : String) : Except MigrationError MigrationFile := do
  let contents ← (tree.read path).mapError .file
  parse path contents

/-- The path of a migration in a directory. -/
def pathIn (directory : String) (file : MigrationFile) : String :=
  Storage.join directory file.fileName

/-- Writes a migration into a directory, which is made if needed; no file is written over.  The
directory stays when the file can not be written. -/
def writing (file : MigrationFile) (tree : Storage.FileTree) (directory : String) :
    Storage.Ending MigrationError :=
  ((tree.makeDirectories directory).mapError .file).andThen fun made =>
    let path := file.pathIn directory
    .ofExcept made
      (if made.has path then .error (.fileExists path)
      else (made.write path file.render).mapError .file)

/-- The tree with a migration in a directory. -/
def write (file : MigrationFile) (tree : Storage.FileTree) (directory : String) :
    Except MigrationError Storage.FileTree :=
  (file.writing tree directory).result

end MigrationFile

/-- The migrations in a directory, in the order of their file names. -/
def discover (tree : Storage.FileTree) (directory : String) :
    Except MigrationError (List MigrationFile) := do
  if !tree.hasDirectory directory then throw (.noDirectory directory)
  let names := (tree.entries directory).filter fun name => (Storage.stem? "sql" name).isSome
  names.mapM fun name => MigrationFile.load tree (Storage.join directory name)

end SchemaPlan
