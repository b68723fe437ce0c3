import SchemaPlan.Command.Generate

/-!
# Applying and reporting

* `apply` applies the migrations that have not been applied,
* `status` shows the state of every migration and whether the database is as declared,
* `introspect` writes the live schema as a declaration.
-/

set_option autoImplicit false

namespace SchemaPlan.Command

open Storage

/-- Applies the migrations, or prints their scripts. -/
def apply (settings : Settings) (dryRun : Bool) (files : FileTree) : Attempt FileTree := do
  let migrations ← Attempt.ofExcept (discover files settings.migrationsDirectory)
  let declaration ← Attempt.ofExcept (declarationIfPresent files settings.schemaFile)
  let schema := settings.targetSchema (declaration.map (·.schema))
  settings.connect
  let executor : Executor := ⟨dryRun, some schema⟩
  executor.init
  if dryRun then Attempt.notice .dryRun
  let outcomes ← executor.applyAll migrations
  let ran := (outcomes.filter (· ≠ .alreadyApplied)).length
  if ran = 0 then Attempt.notice .nothingToApply
  else if !dryRun then Attempt.notice (.appliedAll ran)
  pure files

/-- One line about a migration. -/
def statusLine (status : MigrationStatus) : String :=
  let mark := if status.isApplied then "X" else " "
  let time := (status.record.map fun record => " (" ++ record.appliedAt.display ++ ")").getD ""
  let drift := if status.drifted then " [checksum drift]" else ""
  " [" ++ mark ++ "] " ++ status.name ++ time ++ drift ++ "\n"

/-- The table of all migrations. -/
def statusTable (statuses : List MigrationStatus) : String :=
  "\nMigrations:\n" ++ String.ofList (List.replicate 60 '-') ++ "\n" ++
    String.join (statuses.map statusLine) ++ "\n"

/-- Reports whether the database is as declared. -/
def reportDifference (settings : Settings) (declaration : Declaration) : Attempt Unit := do
  let declared ← Attempt.ofSchema declaration.register
  let live ← Catalog.readGraph (settings.targetSchema (some declaration.schema))
  let changes ← compare {} declared live
  if changes.isEmpty then Attempt.notice (.databaseMatches settings.schemaFile)
  else Attempt.notice (.databaseDiffers settings.schemaFile changes.operations.length)

/-- Shows the state of the migrations. -/
def status (settings : Settings) (files : FileTree) : Attempt FileTree := do
  let migrations ← Attempt.ofExcept (existingMigrations files settings.migrationsDirectory)
  settings.connect
  let executor : Executor := {}
  executor.init
  let statuses ← executor.status migrations
  if statuses.isEmpty then Attempt.notice .noMigrationFiles
  else Attempt.print (statusTable statuses)
  match ← Attempt.ofExcept (declarationIfPresent files settings.schemaFile) with
  | some declaration => reportDifference settings declaration
  | none => pure ()
  pure files

/-- Writes the live schema as a declaration. -/
def introspect (settings : Settings) (output : Option String) (files : FileTree) :
    Attempt FileTree := do
  let existing ← Attempt.ofExcept (declarationIfPresent files settings.schemaFile)
  let schema := settings.targetSchema (existing.map (·.schema))
  settings.connect
  let live ← Catalog.readGraph schema
  let declaration : Declaration := { live.toDeclaration schema with schema := schema }
  let text := declaration.text ++ "\n"
  match output with
  | some path =>
    let files ← Attempt.store (.ofExcept files ((files.write path text).mapError .output))
    Attempt.notice (.wroteDeclaration path)
    pure files
  | none =>
    Attempt.print text
    pure files

end SchemaPlan.Command
