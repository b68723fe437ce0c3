import SchemaPlan.Catalog.Reading
import SchemaPlan.Change.Plan
import SchemaPlan.Command.Arguments
import SchemaPlan.Migration.Execution
import SchemaPlan.Schema.Declaration

/-!
# Generating and checking

The declaration is compared with the live schema, and the difference becomes a migration file.
Nothing is written unless every step before succeeds.

* `generate` writes a migration,
* `validate` checks the declaration and the migrations without a database,
* `compare` is the comparison with its notice.
-/

set_option autoImplicit false

namespace SchemaPlan.Command

open Storage

/-- Reads the declaration. -/
def loadDeclaration (files : FileTree) (path : String) : Except MigrationError Declaration := do
  let text ← (files.read path).mapError .file
  match Declaration.parse? text with
  | some declaration => pure declaration
  | none => throw .unreadableDeclaration

/-- Reads the declaration if there is one. -/
def declarationIfPresent (files : FileTree) (path : String) :
    Except MigrationError (Option Declaration) :=
  if files.has path then (loadDeclaration files path).map some else .ok none

/-- The migrations in a directory; none, if there is no directory. -/
def existingMigrations (files : FileTree) (directory : String) :
    Except MigrationError (List MigrationFile) :=
  if files.hasDirectory directory then discover files directory else .ok []

/-- Compares a declared schema with a live one and reports the numbers. -/
def compare (options : DiffOptions) (declared live : SchemaGraph) : Attempt ChangeSet := do
  let changes ← Attempt.ofSchema (diff options declared live)
  Attempt.notice
    (.compared changes.operations.length changes.destructive.length changes.candidates.length)
  pure changes

/-- Refuses changes that can lose data, unless they are allowed. -/
def refuseDestructive (allowed : Bool) (changes : ChangeSet) : Except MigrationError Unit :=
  if changes.isDestructive && !allowed then
    .error (.destructive (changes.destructive.map Operation.text))
  else .ok ()

/-- Writes a migration, or prints it. -/
def deliver (settings : Settings) (dryRun : Bool) (files : FileTree) (migration : MigrationFile) :
    Attempt FileTree := do
  if dryRun then
    Attempt.print ("Would create migration: " ++ migration.fileName ++ "\n")
    Attempt.print ("\n" ++ migration.render ++ "\n")
    pure files
  else
    let written ← Attempt.store (migration.writing files settings.migrationsDirectory)
    let path := migration.pathIn settings.migrationsDirectory
    Attempt.notice (.wroteMigration path migration.checksum)
    Attempt.notice (.createdMigration path)
    pure written

/-- Makes a migration of the changes that move the live schema to the declared one. -/
def generate (settings : Settings) (arguments : GenerateArguments) (files : FileTree)
    (now : Time.Instant) : Attempt FileTree := do
  let declaration ← Attempt.ofExcept (loadDeclaration files settings.schemaFile)
  let declared ← Attempt.ofSchema declaration.register
  let schema := settings.targetSchema (some declaration.schema)
  settings.connect
  let executor : Executor := {}
  executor.init
  let existing ← Attempt.ofExcept (existingMigrations files settings.migrationsDirectory)
  let pending ← executor.pending existing
  if !pending.isEmpty then Attempt.notice (.pendingFiles pending.length)
  Attempt.notice (.comparingWith schema)
  let live ← Catalog.readGraph schema
  let changes ← compare arguments.diffOptions declared live
  changes.candidates.forM fun candidate => Attempt.notice (.possibleRename candidate)
  if changes.isEmpty then
    Attempt.notice .upToDate
    pure files
  else
    Attempt.ofExcept (refuseDestructive arguments.allowDestructive changes)
    changes.operations.forM fun operation => Attempt.notice (.planned operation)
    let script ← Attempt.ofSchema (Dialect.postgres.script changes.operations)
    deliver settings arguments.dryRun files
      (MigrationFile.ofScript arguments.description script now)

/-- Checks the declaration and the migrations. -/
def validate (settings : Settings) (files : FileTree) : Attempt FileTree := do
  let declaration ← Attempt.ofExcept (loadDeclaration files settings.schemaFile)
  let declared ← Attempt.ofSchema declaration.register
  let changes ← compare {} declared .empty
  let _ ← Attempt.ofSchema (Dialect.postgres.script changes.operations)
  Attempt.notice (.validDeclaration declared.size changes.operations.length)
  let existing ← Attempt.ofExcept (existingMigrations files settings.migrationsDirectory)
  existing.forM fun file => Attempt.ofExcept file.verify
  Attempt.notice (.checksumsMatch existing.length)
  pure files

end SchemaPlan.Command
