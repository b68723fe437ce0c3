import SchemaPlan.Change.Encoding
import SchemaPlan.Database.Memory
import SchemaPlan.Text.Blank

/-!
# Databases as JSON

A database in memory is set up from JSON, and what happened to it is reported as JSON: the
statements that it was sent, the scripts that it ran and its history.
-/

set_option autoImplicit false

namespace SchemaPlan

/-- Reads an instant. -/
def Time.Instant.ofJson? (value : Json) : Option Time.Instant := do
  match Time.Instant.parse (← value.text?) with
  | .ok instant => pure instant
  | .error _ => none

namespace Database

namespace AppliedMigration

/-- Reads a record. -/
def ofJson? (value : Json) : Option AppliedMigration := do
  let name ← value.memberText? "name"
  let checksum ← value.memberText? "checksum"
  let appliedAt ← Time.Instant.ofJson? (value.member "applied_at")
  pure ⟨name, checksum, appliedAt⟩

/-- Writes a record as a list. -/
def toJson (record : AppliedMigration) : Json :=
  Json.ofTexts [record.name, record.checksum, record.appliedAt.text]

end AppliedMigration

/-- A list of records, if there is one. -/
def historyJson (history : Option (List AppliedMigration)) : Json :=
  match history with
  | some records => .array (records.map AppliedMigration.toJson)
  | none => .null

/-- Writes a statement with its parameters.  A read of the catalog is named by what it reads, and its
query is written only when it is wanted. -/
def Statement.toJson (withQueries : Bool) (statement : Statement) : Json :=
  let sql := ("sql", Json.string (Text.trimmed statement.sql))
  let params := ("params", Json.ofTexts statement.params)
  match statement with
  | .readCatalog part _ =>
    .object ([("catalog", .string part.name), params] ++ if withQueries then [sql] else [])
  | _ => .object [sql, params]

namespace Memory

/-- The time of new records when none is given. -/
def defaultNow : String := "2026-01-02T03:04:05Z"

/-- Reads a member that may be missing or null. -/
def memberOr {α : Type} (value : Json) (name : String) (default : α) (decode : Json → Option α) :
    Option α :=
  match value.member name with
  | .null => some default
  | value => decode value

/-- Sets up a database at an address. -/
def ofJson? (address : String) : Json → Option Memory
  | .object members => do
    let value := Json.object members
    let history ← memberOr value "history" none fun value =>
      (Json.list? AppliedMigration.ofJson? value).map some
    let catalog ← memberOr value "catalog" {} Catalog.Snapshot.ofJson?
    let schema ← memberOr value "schema" "public" Json.text?
    let refusals ← memberOr value "fail" [] Json.texts?
    let now ← memberOr value "now" defaultNow Json.text?
    let now ← Time.Instant.ofJson? (.string now)
    pure { address := some address, schema, catalog, refusals, now, history }
  | _ => none

/-- Reports what happened to a database. -/
def toJson (withQueries : Bool) (memory : Memory) : Json :=
  .object [("log", .array (memory.statements.map (Statement.toJson withQueries))),
    ("ran", Json.ofTexts memory.scripts), ("history", historyJson memory.history)]

end Memory

end Database

end SchemaPlan
