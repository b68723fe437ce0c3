import SchemaPlan.Schema.Error
import SchemaPlan.Storage.FileTree
import SchemaPlan.Time.Reading

/-!
# Migration errors

What can go wrong between a declaration, the migration files and the database.  Every error is a
cause; `MigrationError.message` puts it into words and `MigrationError.kind` names its class.
-/

set_option autoImplicit false

namespace SchemaPlan

/-- Why a text is no migration file. -/
inductive HeaderFault where
  | noBlankLine
  | noName
  | noTime
  | noChecksum
  | invalidTime (cause : Time.InvalidInstant)
deriving DecidableEq, Repr

/-- The fault in words. -/
def HeaderFault.text : HeaderFault → String
  | noBlankLine => "missing blank line after header"
  | noName => "missing migration name"
  | noTime => "missing generation time"
  | noChecksum => "missing checksum"
  | invalidTime cause => "invalid timestamp: " ++ cause.message

/-- Why the database gave no answer. -/
inductive DatabaseError where
  /-- There is no connection. -/
  | unreachable
  /-- The database refused a statement. -/
  | refused (text : String)
deriving DecidableEq, Repr

/-- The error in words. -/
def DatabaseError.text : DatabaseError → String
  | unreachable => "error communicating with database"
  | refused text => "error returned from database: " ++ text

/-- What can go wrong with migrations. -/
inductive MigrationError where
  | schema (cause : SchemaError)
  | database (cause : DatabaseError)
  | file (cause : Storage.FileError)
  /-- The declaration is no JSON or has not the form of a declaration. -/
  | unreadableDeclaration
  | malformedFile (path : String) (fault : HeaderFault)
  | fileExists (path : String)
  | noDirectory (path : String)
  /-- The script of a migration is not the one whose checksum was written down. -/
  | checksumMismatch (name recorded actual : String)
  /-- The texts of the operations that were not allowed. -/
  | destructive (operations : List String)
  | noDatabaseUrl
  /-- The answer of a command could not be written. -/
  | output (cause : Storage.FileError)
deriving DecidableEq, Repr

namespace MigrationError

/-- The class of an error. -/
def kind : MigrationError → String
  | schema cause => cause.kind
  | database _ => "DatabaseError"
  | file _ => "IoError"
  | unreadableDeclaration => "SerializationError"
  | malformedFile _ _ => "ParseError"
  | fileExists _ => "MigrationExistsError"
  | noDirectory _ => "MigrationsDirNotFoundError"
  | checksumMismatch _ _ _ => "ChecksumMismatchError"
  | destructive _ => "DestructiveChangesError"
  | noDatabaseUrl => "ConfigurationError"
  | output _ => "Error"

/-- The error in words. -/
def message : MigrationError → String
  | schema cause => cause.message
  | database cause => "Database error: " ++ cause.text
  | file cause => "IO error: " ++ cause.text
  | unreadableDeclaration => "Serialization error: not a declaration"
  | malformedFile path fault => "Failed to parse migration file '" ++ path ++ "': " ++ fault.text
  | fileExists path => "Migration file already exists: " ++ path
  | noDirectory path => "Migrations directory not found: " ++ path
  | checksumMismatch name recorded actual =>
    "Migration '" ++ name ++ "' has checksum " ++ actual ++ " but " ++ recorded ++ " was recorded"
  | destructive operations =>
    "Destructive changes require --allow-destructive:\n" ++
      Text.join "\n" (operations.map fun operation => "  - " ++ operation)
  | noDatabaseUrl => "No database URL configured (set DATABASE_URL or pass --database-url)"
  | output cause => cause.text

end MigrationError

end SchemaPlan
