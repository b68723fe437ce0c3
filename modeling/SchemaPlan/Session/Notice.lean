import SchemaPlan.Change.Operation
import SchemaPlan.Schema.Error
import SchemaPlan.Text.Escaped

/-!
# Notices

What a command reports while it works.  A notice is one line of the log: its level, a message and
fields.
-/

set_option autoImplicit false

namespace SchemaPlan

/-- How urgent a notice is. -/
inductive NoticeLevel where
  | info
  | warning
deriving DecidableEq, Repr

/-- The level as it stands in the log. -/
def NoticeLevel.text : NoticeLevel → String
  | info => " INFO"
  | warning => " WARN"

/-- Something to report. -/
inductive Notice where
  | applying (migration : String)
  | applied (migration checksum : String)
  | recordWithoutFile (migration : String)
  | readingCatalog (schema : String)
  /-- The schema in the database is no valid schema. -/
  | invalidLiveSchema (cause : SchemaError)
  | compared (operations destructive candidates : Nat)
  | pendingFiles (count : Nat)
  | comparingWith (schema : String)
  | possibleRename (candidate : RenameCandidate)
  | upToDate
  | planned (operation : Operation)
  | wroteMigration (path checksum : String)
  | createdMigration (path : String)
  | dryRun
  | nothingToApply
  | appliedAll (count : Nat)
  | validDeclaration (objects operations : Nat)
  | checksumsMatch (migrations : Nat)
  | noMigrationFiles
  | databaseMatches (file : String)
  | databaseDiffers (file : String) (operations : Nat)
  | wroteDeclaration (path : String)

namespace Notice

/-- How urgent a notice is. -/
def level : Notice → NoticeLevel
  | recordWithoutFile _ | invalidLiveSchema _ | pendingFiles _ | possibleRename _
  | databaseDiffers _ _ => .warning
  | _ => .info

/-- The message of a notice. -/
def message : Notice → String
  | applying _ => "Applying migration"
  | applied _ _ => "Migration applied successfully"
  | recordWithoutFile _ => "applied migration has no file"
  | readingCatalog _ => "introspecting database"
  | invalidLiveSchema _ => "live schema does not register"
  | compared _ _ _ => "computed schema diff"
  | pendingFiles _ => "unapplied migration files exist; the new migration may repeat their changes"
  | comparingWith _ => "introspecting"
  | possibleRename _ => "possible rename; confirm with --rename or --rename-column"
  | upToDate => "Schema is up to date, no migration written."
  | planned operation => "  " ++ operation.text
  | wroteMigration _ _ => "wrote migration"
  | createdMigration path => "Created migration: " ++ path
  | dryRun => "Dry run mode - SQL will be printed but not executed."
  | nothingToApply => "No migrations to apply."
  | appliedAll _ => "Migrations applied successfully."
  | validDeclaration _ _ => "declaration is valid"
  | checksumsMatch _ => "migration checksums match"
  | noMigrationFiles => "No migration files found."
  | databaseMatches file => "Database matches " ++ file ++ "."
  | databaseDiffers file _ => "database differs from " ++ file ++ "; run `schemata generate`"
  | wroteDeclaration path => "Wrote " ++ path

/-- The fields of a notice with their texts. -/
def fields : Notice → List (String × String)
  | applying migration => [("name", migration)]
  | applied migration checksum => [("name", migration), ("checksum", checksum)]
  | recordWithoutFile migration => [("name", migration)]
  | readingCatalog schema => [("schema", schema)]
  | invalidLiveSchema cause => [("error", cause.message)]
  | compared operations destructive candidates =>
    [("operations", toString operations), ("destructive", toString destructive),
      ("rename_candidates", toString candidates)]
  | pendingFiles count => [("pending", toString count)]
  | comparingWith schema => [("schema", Text.escaped schema)]
  | possibleRename candidate => [("candidate", candidate.text)]
  | wroteMigration path checksum => [("path", path), ("checksum", checksum)]
  | appliedAll count => [("applied", toString count)]
  | validDeclaration objects operations =>
    [("objects", toString objects), ("operations", toString operations)]
  | checksumsMatch migrations => [("migrations", toString migrations)]
  | databaseDiffers _ operations => [("operations", toString operations)]
  | upToDate | planned _ | createdMigration _ | dryRun | nothingToApply | noMigrationFiles
  | databaseMatches _ | wroteDeclaration _ => []

/-- The line of the log.  Messages hold names that others chose, so they must not steer a terminal. -/
def line (notice : Notice) : String :=
  notice.level.text ++ " " ++ Text.withoutTerminalCodes notice.message ++
    String.join (notice.fields.map fun field => " " ++ field.1 ++ "=" ++ field.2)

end Notice

end SchemaPlan
