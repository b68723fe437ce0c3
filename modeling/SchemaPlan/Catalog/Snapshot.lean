import SchemaPlan.Json.Record

/-!
# Catalog snapshots

What a database reports about its schema: eight lists of rows.
-/

set_option autoImplicit false

namespace SchemaPlan.Catalog

/-- An installed extension. -/
structure ExtensionRow where
  name : String
deriving DecidableEq, Repr

/-- An enum type with its labels in order. -/
structure EnumRow where
  name : String
  labels : List String
deriving DecidableEq, Repr

/-- A table. -/
structure TableRow where
  name : String
  comment : Option String
deriving DecidableEq, Repr

/-- A column with its place in the table and the text of its default. -/
structure ColumnRow where
  table : String
  name : String
  position : Int
  type : String
  nullable : Bool
  default : Option String
  comment : Option String
deriving DecidableEq, Repr

/-- A constraint.  `kind` and the two actions are letters; `definition` is the clause that would
create it. -/
structure ConstraintRow where
  table : String
  name : String
  kind : String
  columns : List String
  definition : String
  referencesTable : Option String
  referencesColumns : List String
  onUpdate : String
  onDelete : String
  deferrable : Bool
  initiallyDeferred : Bool
deriving DecidableEq, Repr

/-- An index with the statement that would create it. -/
structure IndexRow where
  table : String
  name : String
  method : String
  unique : Bool
  definition : String
  predicate : Option String
deriving DecidableEq, Repr

/-- A function; its two promises are letters. -/
structure FunctionRow where
  name : String
  arguments : String
  returns : String
  language : String
  body : String
  volatility : String
  parallel : String
deriving DecidableEq, Repr

/-- A trigger.  `flags` tells in its bits when and for what it runs; `definition` is the statement
that would create it. -/
structure TriggerRow where
  table : String
  name : String
  function : String
  flags : Int
  definition : String
  oldTable : Option String
  newTable : Option String
deriving DecidableEq, Repr

/-- All rows. -/
structure Snapshot where
  extensions : List ExtensionRow := []
  enums : List EnumRow := []
  tables : List TableRow := []
  columns : List ColumnRow := []
  constraints : List ConstraintRow := []
  indexes : List IndexRow := []
  functions : List FunctionRow := []
  triggers : List TriggerRow := []
deriving DecidableEq, Repr

/-! ## Snapshots as JSON -/

namespace ExtensionRow

/-- Reads a row. -/
def ofJson? (value : Json) : Option ExtensionRow := do
  let record ← value.record? ["name"]
  let name ← record.field? "name" Json.text?
  pure { name }

/-- Writes a row. -/
def toJson (row : ExtensionRow) : Json :=
  .object [("name", .string row.name)]

end ExtensionRow

namespace EnumRow

/-- Reads a row. -/
def ofJson? (value : Json) : Option EnumRow := do
  let record ← value.record? ["name", "labels"]
  let name ← record.field? "name" Json.text?
  let labels ← record.field? "labels" Json.texts?
  pure { name, labels }

/-- Writes a row. -/
def toJson (row : EnumRow) : Json :=
  .object [("name", .string row.name), ("labels", Json.ofTexts row.labels)]

end EnumRow

namespace TableRow

/-- Reads a row. -/
def ofJson? (value : Json) : Option TableRow := do
  let record ← value.record? ["name", "comment"]
  let name ← record.field? "name" Json.text?
  let comment ← record.nullable? "comment" Json.text?
  pure { name, comment }

/-- Writes a row. -/
def toJson (row : TableRow) : Json :=
  .object [("name", .string row.name), ("comment", Json.ofOption row.comment)]

end TableRow

namespace ColumnRow

/-- Reads a row; the position has 32 bits. -/
def ofJson? (value : Json) : Option ColumnRow := do
  let record ← value.record?
    ["table", "name", "position", "data_type", "nullable", "default", "comment"]
  let table ← record.field? "table" Json.text?
  let name ← record.field? "name" Json.text?
  let position ← record.field? "position" (Json.integerIn? (-Int.pow 2 31) (Int.pow 2 31 - 1))
  let type ← record.field? "data_type" Json.text?
  let nullable ← record.field? "nullable" Json.bool?
  let default ← record.nullable? "default" Json.text?
  let comment ← record.nullable? "comment" Json.text?
  pure { table, name, position, type, nullable, default, comment }

/-- Writes a row. -/
def toJson (row : ColumnRow) : Json :=
  .object [("table", .string row.table), ("name", .string row.name),
    ("position", .number (.integer row.position)), ("data_type", .string row.type),
    ("nullable", .bool row.nullable), ("default", Json.ofOption row.default),
    ("comment", Json.ofOption row.comment)]

end ColumnRow

namespace ConstraintRow

/-- Reads a row. -/
def ofJson? (value : Json) : Option ConstraintRow := do
  let record ← value.record?
    ["table", "name", "kind", "columns", "definition", "references_table", "references_columns",
      "on_update", "on_delete", "deferrable", "initially_deferred"]
  let table ← record.field? "table" Json.text?
  let name ← record.field? "name" Json.text?
  let kind ← record.field? "kind" Json.text?
  let columns ← record.field? "columns" Json.texts?
  let definition ← record.field? "definition" Json.text?
  let referencesTable ← record.nullable? "references_table" Json.text?
  let referencesColumns ← record.field? "references_columns" Json.texts?
  let onUpdate ← record.field? "on_update" Json.text?
  let onDelete ← record.field? "on_delete" Json.text?
  let deferrable ← record.field? "deferrable" Json.bool?
  let initiallyDeferred ← record.field? "initially_deferred" Json.bool?
  pure ⟨table, name, kind, columns, definition, referencesTable, referencesColumns, onUpdate,
    onDelete, deferrable, initiallyDeferred⟩

/-- Writes a row. -/
def toJson (row : ConstraintRow) : Json :=
  .object [("table", .string row.table), ("name", .string row.name), ("kind", .string row.kind),
    ("columns", Json.ofTexts row.columns), ("definition", .string row.definition),
    ("references_table", Json.ofOption row.referencesTable),
    ("references_columns", Json.ofTexts row.referencesColumns),
    ("on_update", .string row.onUpdate), ("on_delete", .string row.onDelete),
    ("deferrable", .bool row.deferrable), ("initially_deferred", .bool row.initiallyDeferred)]

end ConstraintRow

namespace IndexRow

/-- Reads a row. -/
def ofJson? (value : Json) : Option IndexRow := do
  let record ← value.record? ["table", "name", "method", "unique", "definition", "predicate"]
  let table ← record.field? "table" Json.text?
  let name ← record.field? "name" Json.text?
  let method ← record.field? "method" Json.text?
  let unique ← record.field? "unique" Json.bool?
  let definition ← record.field? "definition" Json.text?
  let predicate ← record.nullable? "predicate" Json.text?
  pure { table, name, method, unique, definition, predicate }

/-- Writes a row. -/
def toJson (row : IndexRow) : Json :=
  .object [("table", .string row.table), ("name", .string row.name),
    ("method", .string row.method), ("unique", .bool row.unique),
    ("definition", .string row.definition), ("predicate", Json.ofOption row.predicate)]

end IndexRow

namespace FunctionRow

/-- Reads a row. -/
def ofJson? (value : Json) : Option FunctionRow := do
  let record ← value.record?
    ["name", "arguments", "returns", "language", "body", "volatility", "parallel"]
  let name ← record.field? "name" Json.text?
  let arguments ← record.field? "arguments" Json.text?
  let returns ← record.field? "returns" Json.text?
  let language ← record.field? "language" Json.text?
  let body ← record.field? "body" Json.text?
  let volatility ← record.field? "volatility" Json.text?
  let parallel ← record.field? "parallel" Json.text?
  pure { name, arguments, returns, language, body, volatility, parallel }

/-- Writes a row. -/
def toJson (row : FunctionRow) : Json :=
  .object [("name", .string row.name), ("arguments", .string row.arguments),
    ("returns", .string row.returns), ("language", .string row.language),
    ("body", .string row.body), ("volatility", .string row.volatility),
    ("parallel", .string row.parallel)]

end FunctionRow

namespace TriggerRow

/-- Reads a row; the flags have 16 bits. -/
def ofJson? (value : Json) : Option TriggerRow := do
  let record ← value.record?
    ["table", "name", "function", "tgtype", "definition", "old_table", "new_table"]
  let table ← record.field? "table" Json.text?
  let name ← record.field? "name" Json.text?
  let function ← record.field? "function" Json.text?
  let flags ← record.field? "tgtype" (Json.integerIn? (-Int.pow 2 15) (Int.pow 2 15 - 1))
  let definition ← record.field? "definition" Json.text?
  let oldTable ← record.nullable? "old_table" Json.text?
  let newTable ← record.nullable? "new_table" Json.text?
  pure { table, name, function, flags, definition, oldTable, newTable }

/-- Writes a row. -/
def toJson (row : TriggerRow) : Json :=
  .object [("table", .string row.table), ("name", .string row.name),
    ("function", .string row.function), ("tgtype", .number (.integer row.flags)),
    ("definition", .string row.definition), ("old_table", Json.ofOption row.oldTable),
    ("new_table", Json.ofOption row.newTable)]

end TriggerRow

namespace Snapshot

/-- Reads a snapshot; every list is required. -/
def ofJson? (value : Json) : Option Snapshot := do
  let record ← value.record?
    ["extensions", "enums", "tables", "columns", "constraints", "indexes", "functions", "triggers"]
  let extensions ← record.field? "extensions" (Json.list? ExtensionRow.ofJson?)
  let enums ← record.field? "enums" (Json.list? EnumRow.ofJson?)
  let tables ← record.field? "tables" (Json.list? TableRow.ofJson?)
  let columns ← record.field? "columns" (Json.list? ColumnRow.ofJson?)
  let constraints ← record.field? "constraints" (Json.list? ConstraintRow.ofJson?)
  let indexes ← record.field? "indexes" (Json.list? IndexRow.ofJson?)
  let functions ← record.field? "functions" (Json.list? FunctionRow.ofJson?)
  let triggers ← record.field? "triggers" (Json.list? TriggerRow.ofJson?)
  pure { extensions, enums, tables, columns, constraints, indexes, functions, triggers }

/-- Writes a snapshot. -/
def toJson (snapshot : Snapshot) : Json :=
  .object [("extensions", .array (snapshot.extensions.map ExtensionRow.toJson)),
    ("enums", .array (snapshot.enums.map EnumRow.toJson)),
    ("tables", .array (snapshot.tables.map TableRow.toJson)),
    ("columns", .array (snapshot.columns.map ColumnRow.toJson)),
    ("constraints", .array (snapshot.constraints.map ConstraintRow.toJson)),
    ("indexes", .array (snapshot.indexes.map IndexRow.toJson)),
    ("functions", .array (snapshot.functions.map FunctionRow.toJson)),
    ("triggers", .array (snapshot.triggers.map TriggerRow.toJson))]

end Snapshot

end SchemaPlan.Catalog
