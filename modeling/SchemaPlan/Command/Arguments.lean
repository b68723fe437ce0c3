import SchemaPlan.Change.Options
import SchemaPlan.Command.Settings
import SchemaPlan.Text.Number

/-!
# Arguments

A command line holds words and options.  The first word names the command; an option takes its value
from behind an equals sign or from the next argument.  Options with a letter may share one dash, and
the first of them that takes a value ends the row.  Options that go with every command may stand
before the command or behind it; given in both places, an option has the value behind the command,
but both values have to be readable.  What the command line does not say, the environment may.

* `CommandLine.ofArguments` tells words from options,
* `CommandLine.read` makes settings and a request of them.
-/

set_option autoImplicit false

namespace SchemaPlan.Command

/-- What is asked for when a migration is generated. -/
structure GenerateArguments where
  description : String
  allowDestructive : Bool := false
  renames : List RenameHint := []
  columnRenames : List ColumnRenameHint := []
  allowLossy : Bool := false
  dryRun : Bool := false
deriving DecidableEq, Repr

/-- The options for the comparison that was asked for. -/
def GenerateArguments.diffOptions (arguments : GenerateArguments) : DiffOptions where
  renames := arguments.renames
  columnRenames := arguments.columnRenames
  allowLossyTypes := arguments.allowLossy

/-- What a command line asks for. -/
inductive Request where
  | generate (arguments : GenerateArguments)
  | apply (dryRun : Bool)
  | validate
  | status
  | introspect (output : Option String)
deriving DecidableEq, Repr

/-- Why a command line asks for nothing. -/
inductive UsageError where
  | unknownOption (option : String)
  | missingValue (option : String)
  | unwantedValue (option : String)
  | invalidValue (option value : String)
  | repeatedOption (option : String)
  | missingWord
  | unexpectedWord (word : String)
deriving DecidableEq, Repr

/-- The error in words. -/
def UsageError.message : UsageError → String
  | unknownOption option => "unexpected argument '" ++ option ++ "' found"
  | missingValue option => "a value is required for '" ++ option ++ "' but none was supplied"
  | unwantedValue option => "unexpected value for '" ++ option ++ "' found"
  | invalidValue option value => "invalid value '" ++ value ++ "' for '" ++ option ++ "'"
  | repeatedOption option => "the argument '" ++ option ++ "' cannot be used multiple times"
  | missingWord => "a command or a name is missing"
  | unexpectedWord word => "unexpected argument '" ++ word ++ "' found"

/-- An option of the command line. -/
inductive Switch where
  | databaseUrl
  | schemaFile
  | migrationsDirectory
  | pgSchema
  | maxConnections
  | verbose
  | dryRun
  | output
  | allowDestructive
  | rename
  | renameColumn
  | allowLossy
deriving DecidableEq, Repr

namespace Switch

/-- The options with their names. -/
def names : List (String × Switch) :=
  [("database-url", databaseUrl), ("schema-file", schemaFile),
    ("migrations-dir", migrationsDirectory), ("pg-schema", pgSchema),
    ("max-connections", maxConnections), ("verbose", verbose), ("dry-run", dryRun),
    ("output", output), ("allow-destructive", allowDestructive), ("rename", rename),
    ("rename-column", renameColumn), ("allow-lossy", allowLossy)]

/-- The options with their letters. -/
def letters : List (Char × Switch) :=
  [('v', verbose), ('o', output)]

/-- The option of a name. -/
def ofName? (name : String) : Option Switch :=
  names.lookup name

/-- How an option is written. -/
def text (switch : Switch) : String :=
  "--" ++ ((names.find? fun entry => entry.2 = switch).map Prod.fst).getD ""

/-- Whether an option has a value. -/
def takesValue : Switch → Bool
  | verbose | dryRun | allowDestructive | allowLossy => false
  | _ => true

/-- Whether an option goes with every command. -/
def isCommon : Switch → Bool
  | databaseUrl | schemaFile | migrationsDirectory | pgSchema | maxConnections | verbose => true
  | _ => false

end Switch

/-- Options with their values, in order. -/
abbrev Options := List (Switch × String)

namespace Options

/-- The values of an option, in order. -/
def values (options : Options) (switch : Switch) : List String :=
  options.filterMap fun option => if option.1 = switch then some option.2 else none

/-- The value of an option that may be given once. -/
def value? (options : Options) (switch : Switch) : Except UsageError (Option String) :=
  match options.values switch with
  | [] => .ok none
  | [value] => .ok (some value)
  | _ => .error (.repeatedOption switch.text)

end Options

/-- One argument of a command line. -/
inductive Argument where
  | word (text : String)
  /-- Options that are complete, and behind them one whose value is the next argument. -/
  | options (complete : Options) (waiting : Option Switch)
  | refused (error : UsageError)
  /-- Behind this argument there are only words. -/
  | wordsFollow
deriving DecidableEq, Repr

namespace Argument

/-- An option with the value that is attached to it. -/
def ofSwitch (switch : Switch) (attached : Option String) : Argument :=
  match switch.takesValue, attached with
  | true, some value => options [(switch, value)] none
  | true, none => options [] (some switch)
  | false, none => options [(switch, "")] none
  | false, some _ => refused (.unwantedValue switch.text)

/-- Puts an option before an argument. -/
def withOption (switch : Switch) : Argument → Argument
  | options complete waiting => options ((switch, "") :: complete) waiting
  | argument => argument

/-- The value that is attached to a letter, with an equals sign or without. -/
def attachedValue? : List Char → Option String
  | [] => none
  | '=' :: value => some (String.ofList value)
  | value => some (String.ofList value)

/-- Reads the letters behind a dash. -/
def ofLetters : List Char → Argument
  | [] => options [] none
  | letter :: rest =>
    match Switch.letters.lookup letter with
    | none => refused (.unknownOption (String.ofList ['-', letter]))
    | some switch =>
      if switch.takesValue then ofSwitch switch (attachedValue? rest)
      else (ofLetters rest).withOption switch

/-- Reads what stands behind two dashes. -/
def ofLong (text : List Char) : Argument :=
  let (name, value) :=
    match Text.cut? '=' text with
    | some (name, value) => (String.ofList name, some (String.ofList value))
    | none => (String.ofList text, none)
  match Switch.ofName? name with
  | some switch => ofSwitch switch value
  | none => refused (.unknownOption ("--" ++ name))

/-- Reads one argument.  A dash alone is a word. -/
def ofText (text : String) : Argument :=
  match text.toList with
  | ['-', '-'] => wordsFollow
  | '-' :: '-' :: rest => ofLong rest
  | '-' :: letter :: rest => ofLetters (letter :: rest)
  | _ => word text

/-- Whether an argument may be the value of the option before it. -/
def isWord : Argument → Bool
  | word _ => true
  | _ => false

end Argument

/-- A command line: its words and its options, those before the first word apart. -/
structure CommandLine where
  leading : Options := []
  words : List String := []
  options : Options := []
  /-- What stands behind two dashes when no word is before them. -/
  behindDashes : List String := []
deriving DecidableEq, Repr

namespace CommandLine

/-- Puts options before a command line. -/
def withOptions (options : Options) (line : CommandLine) : CommandLine :=
  { line with leading := options ++ line.leading }

/-- Puts a word before a command line. -/
def withWord (word : String) (line : CommandLine) : CommandLine :=
  { words := word :: (line.words ++ line.behindDashes), options := line.leading ++ line.options }

/-- Tells words from options. -/
def ofArguments : List String → Except UsageError CommandLine
  | [] => .ok {}
  | [text] =>
    match Argument.ofText text with
    | .word word => .ok (withWord word {})
    | .options complete none => .ok (withOptions complete {})
    | .options _ (some switch) => .error (.missingValue switch.text)
    | .refused error => .error error
    | .wordsFollow => .ok {}
  | text :: next :: rest =>
    match Argument.ofText text with
    | .word word => (ofArguments (next :: rest)).map (withWord word)
    | .options complete none => (ofArguments (next :: rest)).map (withOptions complete)
    | .options complete (some switch) =>
      if (Argument.ofText next).isWord then
        (ofArguments rest).map (withOptions (complete ++ [(switch, next)]))
      else .error (.missingValue switch.text)
    | .refused error => .error error
    | .wordsFollow => .ok { behindDashes := next :: rest }

/-- The values of an option of the command, in order. -/
def values (line : CommandLine) (switch : Switch) : List String :=
  line.options.values switch

/-- The value of an option that may be given once before the command and once behind it, or by a
variable.  The variable stands in for each place where the option is not given, and what stands in a
place is read there, also when another place wins. -/
def value? {α : Type} (line : CommandLine) (switch : Switch) (fallback : Option String)
    (decode : String → Except UsageError α) : Except UsageError (Option α) := do
  let before ← line.leading.value? switch
  let behind ← line.options.value? switch
  let _ ← (before <|> fallback).mapM decode
  let _ ← (behind <|> fallback).mapM decode
  (behind <|> before <|> fallback).mapM decode

/-- Whether an option without a value is given. -/
def flag (line : CommandLine) (switch : Switch) : Except UsageError Bool :=
  (line.value? switch none .ok).map Option.isSome

/-- Refuses options before the command that do not go with every command, and a command that is not
there because two dashes are before it. -/
def checkLeading (line : CommandLine) : Except UsageError Unit :=
  match line.leading.find? (fun option => !option.1.isCommon), line.behindDashes with
  | some option, _ => .error (.unknownOption option.1.text)
  | none, word :: _ => .error (.unexpectedWord word)
  | none, [] => .ok ()

/-- Refuses options that do not go with a command. -/
def allowOnly (line : CommandLine) (allowed : List Switch) : Except UsageError Unit :=
  match line.options.find? fun option => !(option.1.isCommon || allowed.contains option.1) with
  | some option => .error (.unknownOption option.1.text)
  | none => .ok ()

/-- The value of an option as it is read by `decode`. -/
def decoded {α ε : Type} (switch : Switch) (decode : String → Except ε α) (value : String) :
    Except UsageError α :=
  (decode value).mapError fun _ => .invalidValue switch.text value

/-- A path, which must not be empty. -/
def path? (switch : Switch) (value : String) : Except UsageError String :=
  if value = "" then .error (.invalidValue switch.text value) else .ok value

/-- The number of connections.  It may have a sign: zero behind a minus sign is still zero. -/
def connections? (text : String) : Except UsageError Nat :=
  match Text.readInt? text.toList with
  | some n =>
    if 0 ≤ n ∧ n < Int.pow 2 32 then .ok n.toNat
    else .error (.invalidValue Switch.maxConnections.text text)
  | none => .error (.invalidValue Switch.maxConnections.text text)

/-- The settings of a command line, completed from the environment. -/
def settings (environment : List (String × String)) (line : CommandLine) :
    Except UsageError Settings := do
  let start : Settings := {}
  let databaseUrl ← line.value? .databaseUrl (environment.lookup "DATABASE_URL") .ok
  let schemaFile ←
    line.value? .schemaFile (environment.lookup "SCHEMATA_SCHEMA_FILE") (path? .schemaFile)
  let migrationsDirectory ←
    line.value? .migrationsDirectory (environment.lookup "SCHEMATA_MIGRATIONS_DIR")
      (path? .migrationsDirectory)
  let pgSchema ← line.value? .pgSchema (environment.lookup "SCHEMATA_PG_SCHEMA") .ok
  let maxConnections ← line.value? .maxConnections none connections?
  let _ ← line.flag .verbose
  pure
    { databaseUrl := databaseUrl
      schemaFile := schemaFile.getD start.schemaFile
      migrationsDirectory := migrationsDirectory.getD start.migrationsDirectory
      pgSchema := pgSchema
      maxConnections := maxConnections.getD start.maxConnections }

/-- What is asked for when a migration is generated. -/
def generateArguments (line : CommandLine) (description : String) :
    Except UsageError GenerateArguments := do
  line.allowOnly [.allowDestructive, .rename, .renameColumn, .allowLossy, .dryRun]
  pure
    { description := description
      allowDestructive := ← line.flag .allowDestructive
      renames := ← (line.values .rename).mapM (decoded .rename RenameHint.parse)
      columnRenames :=
        ← (line.values .renameColumn).mapM (decoded .renameColumn ColumnRenameHint.parse)
      allowLossy := ← line.flag .allowLossy
      dryRun := ← line.flag .dryRun }

/-- What the words of a command line ask for. -/
def requestOfWords (line : CommandLine) : Except UsageError Request :=
  match line.words with
  | ["generate", description] => (line.generateArguments description).map .generate
  | ["apply"] => do
    line.allowOnly [.dryRun]
    pure (.apply (← line.flag .dryRun))
  | ["validate"] => do
    line.allowOnly []
    pure .validate
  | ["status"] => do
    line.allowOnly []
    pure .status
  | ["introspect"] => do
    line.allowOnly [.output]
    pure (.introspect (← line.value? .output none (path? .output)))
  | [] | ["generate"] => .error .missingWord
  | "generate" :: _ :: word :: _ => .error (.unexpectedWord word)
  | word :: _ => .error (.unexpectedWord word)

/-- What a command line asks for. -/
def request (line : CommandLine) : Except UsageError Request := do
  line.checkLeading
  line.requestOfWords

/-- Reads arguments in an environment. -/
def read (environment : List (String × String)) (arguments : List String) :
    Except UsageError (Settings × Request) := do
  let line ← ofArguments arguments
  let settings ← line.settings environment
  let request ← line.request
  pure (settings, request)

end CommandLine

end SchemaPlan.Command
