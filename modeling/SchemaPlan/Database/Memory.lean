import SchemaPlan.Session.Basic

/-!
# A database in memory

A server with a fixed catalog and a history table.  It keeps the statements that it was sent, and it
can be told to refuse statements.  What a transaction does is seen after it commits: a transaction
that fails or is left open has no effect.

* `Memory.server` answers sessions,
* `Memory.statements` lists what was sent.  The reads of the catalog between two other statements
  are listed in a fixed order, and none is listed once one was refused.
-/

set_option autoImplicit false

namespace SchemaPlan.Database

/-- The effects of a transaction. -/
structure Transaction where
  records : List AppliedMigration := []
  scripts : List String := []
deriving DecidableEq, Repr

/-- The state of a database. -/
structure Memory where
  /-- Where the database is reached; nowhere, if there is none. -/
  address : Option String := none
  /-- The name of the schema that the catalog is about. -/
  schema : String := "public"
  catalog : Catalog.Snapshot := {}
  /-- A statement that contains one of these texts is refused with that text. -/
  refusals : List String := []
  /-- The time of every new record. -/
  now : Time.Instant
  /-- The records in the order of their insertion, if there is a table for them. -/
  history : Option (List AppliedMigration) := none
  /-- The scripts that were run. -/
  scripts : List String := []
  /-- The transaction that has begun. -/
  transaction : Option Transaction := none
  /-- What was sent, the latest first. -/
  sent : List Statement := []
  /-- Whether a read of the catalog was refused. -/
  readRefused : Bool := false

/-- Whether a statement reads the catalog. -/
def Statement.isRead : Statement → Bool
  | .readCatalog _ _ => true
  | _ => false

/-- Whether a read is listed before another. -/
def Statement.readBefore : Statement → Statement → Bool
  | .readCatalog a s, .readCatalog b t =>
    a.name < b.name || a.name == b.name && decide (a.params s historyTable < b.params t historyTable)
  | _, _ => false

/-- Puts a read to its place among the latest ones. -/
def insertRead (read : Statement) : List Statement → List Statement
  | [] => [read]
  | latest :: earlier =>
    if read.readBefore latest then latest :: insertRead read earlier else read :: latest :: earlier

/-- The instant as a database keeps it: to the microsecond and without leap seconds. -/
def keptInstant (t : Time.Instant) : Time.Instant :=
  let nanosecond : Fin 1000000000 := ⟨t.nanosecond / 1000 * 1000, by omega⟩
  if t.second = 60 then
    let minute : Nat := t.minute + 1
    ⟨if minute = 1440 then t.date.next else t.date, ⟨minute % 1440, by omega⟩, 0, nanosecond⟩
  else { t with nanosecond := nanosecond }

/-- A record as it is read back. -/
def AppliedMigration.readBack (record : AppliedMigration) : AppliedMigration :=
  { record with appliedAt := keptInstant record.appliedAt }

/-- Whether a record comes before another: earlier records first, then by name. -/
def AppliedMigration.before (a b : AppliedMigration) : Bool :=
  ((compare a.appliedAt b.appliedAt).then (compare a.name b.name)).isLE

namespace Memory

/-- The text with which a statement is refused. -/
def refusal? (memory : Memory) (statement : Statement) : Option String :=
  memory.refusals.find? fun text => Text.occursIn text.toList statement.sql.toList

/-- The database after it was sent a statement. -/
def note (memory : Memory) (statement : Statement) : Memory :=
  if statement.isRead then
    if memory.readRefused then memory
    else { memory with sent := insertRead statement memory.sent }
  else { memory with sent := statement :: memory.sent }

/-- The database after it refused a statement. -/
def afterRefusal (memory : Memory) (statement : Statement) : Memory :=
  if statement.isRead then
    { memory with readRefused := true, sent := memory.sent.dropWhile Statement.isRead }
  else { memory with transaction := none }

/-- The database with the effects of a transaction. -/
def commit (memory : Memory) (transaction : Transaction) : Memory :=
  { memory with
    history := memory.history.map (· ++ transaction.records)
    scripts := memory.scripts ++ transaction.scripts
    transaction := none }

/-- The database with more effects, at once or when the transaction commits. -/
def affect (memory : Memory) (effects : Transaction) : Memory :=
  match memory.transaction with
  | some ⟨records, scripts⟩ =>
    { memory with
      transaction := some ⟨records ++ effects.records, scripts ++ effects.scripts⟩ }
  | none => memory.commit effects

/-- The rows of a list of the catalog. -/
def rows (memory : Memory) (schema : String) : (part : CatalogPart) → List part.Row
  | .extensions => memory.catalog.extensions
  | .enums => if schema = memory.schema then memory.catalog.enums else []
  | .tables =>
    if schema = memory.schema then memory.catalog.tables.filter (·.name ≠ historyTable) else []
  | .columns =>
    if schema = memory.schema then memory.catalog.columns.filter (·.table ≠ historyTable) else []
  | .constraints =>
    if schema = memory.schema then memory.catalog.constraints.filter (·.table ≠ historyTable)
    else []
  | .indexes =>
    if schema = memory.schema then memory.catalog.indexes.filter (·.table ≠ historyTable) else []
  | .functions => if schema = memory.schema then memory.catalog.functions else []
  | .triggers => if schema = memory.schema then memory.catalog.triggers else []

/-- What happens when there is no history table. -/
def noHistory : DatabaseError :=
  .refused ("relation \"" ++ historyTable ++ "\" does not exist")

/-- What happens when a record of that name exists. -/
def duplicateRecord : DatabaseError :=
  .refused ("duplicate key value violates unique constraint \"" ++ historyTable ++ "_pkey\"")

/-- The records of the history. -/
def records (memory : Memory) : Except DatabaseError (List AppliedMigration) :=
  match memory.history with
  | some records => .ok records
  | none => .error noHistory

/-- The database after it inserted a record. -/
def insert (memory : Memory) (name checksum : String) : Except DatabaseError Memory := do
  let records ← memory.records
  if records.any fun record => record.name = name then throw duplicateRecord
  pure (memory.affect { records := [⟨name, checksum, memory.now⟩] })

/-- The answer to a statement that is not refused, and the database after it. -/
def execute (memory : Memory) :
    (statement : Statement) → Except DatabaseError (statement.Reply × Memory)
  | .createHistory => .ok ((), { memory with history := some (memory.history.getD []) })
  | .historyExists => .ok (memory.history.isSome, memory)
  | .findRecord name =>
    memory.records.map fun records =>
      ((records.find? fun record => record.name = name).map AppliedMigration.readBack, memory)
  | .listRecords =>
    memory.records.map fun records =>
      ((records.mergeSort AppliedMigration.before).map AppliedMigration.readBack, memory)
  | .countRecords => memory.records.map fun records => (records.length, memory)
  | .beginTransaction => .ok ((), { memory with transaction := some {} })
  | .insertRecord name checksum => (memory.insert name checksum).map fun memory => ((), memory)
  | .setSearchPath _ => .ok ((), memory)
  | .runScript text => .ok ((), memory.affect { scripts := [text] })
  | .commit => .ok ((), memory.commit (memory.transaction.getD {}))
  | .readCatalog part schema => .ok (memory.rows schema part, memory)

/-- Answers a statement. -/
def answer (memory : Memory) (statement : Statement) :
    Except DatabaseError statement.Reply × Memory :=
  let memory := memory.note statement
  match memory.refusal? statement with
  | some text => (.error (.refused text), memory.afterRefusal statement)
  | none =>
    match memory.execute statement with
    | .ok (reply, memory) => (.ok reply, memory)
    | .error cause => (.error cause, memory.afterRefusal statement)

/-- Opens a connection. -/
def connect (memory : Memory) (url : String) (connections : Nat) :
    Except DatabaseError Unit × Memory :=
  if memory.address = some url ∧ 0 < connections then (.ok (), memory)
  else (.error .unreachable, memory)

/-- The database as a server. -/
def server : Server Memory where
  connect := connect
  answer := answer

/-- What was sent, the earliest first. -/
def statements (memory : Memory) : List Statement :=
  memory.sent.reverse

end Memory

end SchemaPlan.Database
