import SchemaPlan.Database.CatalogPart
import SchemaPlan.Time.Instant

/-!
# Statements

The statements that are sent to a database, each with its SQL text, its parameters and what it
answers.  Applied migrations are recorded in a table of their own, the history.
-/

set_option autoImplicit false

namespace SchemaPlan.Database

/-- The record of an applied migration. -/
structure AppliedMigration where
  name : String
  checksum : String
  appliedAt : Time.Instant
deriving DecidableEq, Repr

/-- The name of the history table. -/
def historyTable : String := "schemata_migrations"

/-- A statement. -/
inductive Statement where
  /-- Makes the history table if there is none. -/
  | createHistory
  | historyExists
  | findRecord (name : String)
  /-- All records, the oldest first. -/
  | listRecords
  | countRecords
  | beginTransaction
  | insertRecord (name checksum : String)
  /-- Makes unqualified names mean a schema until the transaction ends. -/
  | setSearchPath (schema : String)
  /-- Runs the script of a migration. -/
  | runScript (text : String)
  | commit
  | readCatalog (part : CatalogPart) (schema : String)
deriving DecidableEq, Repr

namespace Statement

/-- What a statement answers. -/
def Reply : Statement → Type
  | historyExists => Bool
  | findRecord _ => Option AppliedMigration
  | listRecords => List AppliedMigration
  | countRecords => Nat
  | readCatalog part _ => List part.Row
  | createHistory | beginTransaction | insertRecord _ _ | setSearchPath _ | runScript _ | commit =>
    Unit

/-- The text of a statement. -/
def sql : Statement → String
  | createHistory =>
    "\nCREATE TABLE IF NOT EXISTS schemata_migrations (\n" ++
      "    name TEXT PRIMARY KEY,\n" ++
      "    checksum TEXT NOT NULL,\n" ++
      "    applied_at TIMESTAMPTZ NOT NULL DEFAULT now()\n" ++
      ")\n"
  | historyExists => "SELECT to_regclass($1) IS NOT NULL"
  | findRecord _ => "SELECT name, checksum, applied_at FROM schemata_migrations WHERE name = $1"
  | listRecords =>
    "SELECT name, checksum, applied_at FROM schemata_migrations ORDER BY applied_at, name"
  | countRecords => "SELECT COUNT(*) FROM schemata_migrations"
  | beginTransaction => "BEGIN"
  | insertRecord _ _ => "INSERT INTO schemata_migrations (name, checksum) VALUES ($1, $2)"
  | setSearchPath _ => "SELECT set_config('search_path', format('%I', $1::text), true)"
  | runScript text => text
  | commit => "COMMIT"
  | readCatalog part _ => part.sql

/-- The parameters of a statement. -/
def params : Statement → List String
  | historyExists => [historyTable]
  | findRecord name => [name]
  | insertRecord name checksum => [name, checksum]
  | setSearchPath schema => [schema]
  | readCatalog part schema => part.params schema historyTable
  | createHistory | listRecords | countRecords | beginTransaction | runScript _ | commit => []

end Statement

end SchemaPlan.Database
