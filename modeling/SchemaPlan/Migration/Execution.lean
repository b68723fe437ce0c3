import SchemaPlan.Migration.File
import SchemaPlan.Order.Sorted
import SchemaPlan.Session.Basic

/-!
# Applying migrations

Every migration runs in a transaction of its own, together with its record in the history, so
either both stay or none.  A migration that the history records is not run again, and a migration
whose script or record has another checksum is refused.

* `Executor.apply` applies one migration and `Executor.applyAll` several, up to the first failure,
* `Executor.pending` and `Executor.status` compare migrations with the history.
-/

set_option autoImplicit false

namespace SchemaPlan

open Database

/-- How migrations are applied. -/
structure Executor where
  /-- Whether scripts are printed and not run. -/
  dryRun : Bool := false
  /-- What unqualified names in scripts are looked up in. -/
  schema : Option String := none
deriving DecidableEq, Repr

/-- What became of a migration. -/
inductive ApplyOutcome where
  | applied
  | alreadyApplied
  /-- Its script was printed. -/
  | printed
deriving DecidableEq, Repr

/-- A migration and its record. -/
structure MigrationStatus where
  name : String
  record : Option AppliedMigration
  /-- Whether the script, the header and the record disagree about the checksum. -/
  drifted : Bool
deriving DecidableEq, Repr

/-- Whether a migration has been applied. -/
def MigrationStatus.isApplied (status : MigrationStatus) : Bool :=
  status.record.isSome

/-- Whether the script, the header and the record of a migration disagree about the checksum. -/
def MigrationFile.driftsFrom (file : MigrationFile) (record : Option AppliedMigration) : Bool :=
  !file.isIntact || record.any fun record => record.checksum != file.checksum

namespace Executor

/-- Makes the history table.  A dry run changes nothing. -/
def init (executor : Executor) : Attempt Unit :=
  if executor.dryRun then pure () else Attempt.send .createHistory

/-- Whether there is a history to read; only after a dry run there may be none. -/
def hasHistory (executor : Executor) : Attempt Bool :=
  if executor.dryRun then Attempt.send .historyExists else pure true

/-- The record of a migration. -/
def record? (executor : Executor) (name : String) : Attempt (Option AppliedMigration) := do
  if ← executor.hasHistory then Attempt.send (.findRecord name) else pure none

/-- The records of all migrations, by name. -/
def records (executor : Executor) : Attempt (List AppliedMigration) := do
  if ← executor.hasHistory then
    let records ← Attempt.send .listRecords
    pure (Order.ofList AppliedMigration.name records)
  else pure []

/-- Runs a migration and records it.  The record is written before the script can change where
names are looked up. -/
def runFile (executor : Executor) (file : MigrationFile) : Attempt Unit := do
  Attempt.send .beginTransaction
  Attempt.send (.insertRecord file.name file.checksum)
  match executor.schema with
  | some schema => Attempt.send (.setSearchPath schema)
  | none => pure ()
  Attempt.send (.runScript file.body)
  Attempt.send .commit

/-- Applies a migration that has no record. -/
def applyNew (executor : Executor) (file : MigrationFile) : Attempt ApplyOutcome := do
  Attempt.notice (.applying file.name)
  if executor.dryRun then
    Attempt.print ("-- " ++ file.name ++ "\n" ++ file.body)
    pure .printed
  else
    executor.runFile file
    Attempt.notice (.applied file.name file.checksum)
    pure .applied

/-- Applies a migration. -/
def apply (executor : Executor) (file : MigrationFile) : Attempt ApplyOutcome := do
  Attempt.ofExcept file.verify
  match ← executor.record? file.name with
  | some record =>
    if record.checksum = file.checksum then pure .alreadyApplied
    else throw (.checksumMismatch file.name record.checksum file.checksum)
  | none => executor.applyNew file

/-- Applies migrations in order, up to the first failure. -/
def applyAll (executor : Executor) (files : List MigrationFile) : Attempt (List ApplyOutcome) :=
  files.mapM executor.apply

/-- The migrations without a record. -/
def pending (executor : Executor) (files : List MigrationFile) : Attempt (List MigrationFile) := do
  let records ← executor.records
  pure (files.filter fun file => !records.any fun record => record.name = file.name)

/-- Pairs migrations with records.  A record is given to the first migration of its name; the
records that are left over come last. -/
def pairUp : List AppliedMigration → List MigrationFile →
    List MigrationStatus × List AppliedMigration
  | records, [] => ([], records)
  | records, file :: files =>
    let record := records.find? fun record => record.name = file.name
    let (statuses, left) := pairUp (records.filter fun record => record.name ≠ file.name) files
    (⟨file.name, record, file.driftsFrom record⟩ :: statuses, left)

/-- The state of migrations; records without a migration are reported. -/
def status (executor : Executor) (files : List MigrationFile) :
    Attempt (List MigrationStatus) := do
  let records ← executor.records
  let (statuses, left) := pairUp records files
  left.forM fun record => Attempt.notice (.recordWithoutFile record.name)
  pure statuses

end Executor

end SchemaPlan
