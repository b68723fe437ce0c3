import SchemaPlan.Session.Basic

/-!
# Settings

What every command needs to know: where the database, the declaration and the migrations are, and
which schema is meant.
-/

set_option autoImplicit false

namespace SchemaPlan.Command

/-- The settings of a command. -/
structure Settings where
  databaseUrl : Option String := none
  schemaFile : String := "schema.json"
  migrationsDirectory : String := "migrations"
  /-- The schema in the database that the user named. -/
  pgSchema : Option String := none
  maxConnections : Nat := 5
deriving DecidableEq, Repr

namespace Settings

/-- The schema that is meant when nobody named one. -/
def defaultSchema : String := "public"

/-- The address of the database, which must not be empty. -/
def requireUrl (settings : Settings) : Except MigrationError String :=
  match settings.databaseUrl with
  | some url => if url = "" then .error .noDatabaseUrl else .ok url
  | none => .error .noDatabaseUrl

/-- The schema that is meant: the one of the settings, else the declared one, else the default.  An
empty name names nothing. -/
def targetSchema (settings : Settings) (declared : Option String) : String :=
  (([settings.pgSchema, declared].filterMap id).find? (· ≠ "")).getD defaultSchema

/-- Opens a connection. -/
def connect (settings : Settings) : Attempt Unit := do
  let url ← Attempt.ofExcept settings.requireUrl
  Attempt.connect url settings.maxConnections

end Settings

end SchemaPlan.Command
