import SchemaPlan.Catalog.Clause
import SchemaPlan.Catalog.Snapshot
import SchemaPlan.Graph.Registration
import SchemaPlan.Schema.IndexKeys

/-!
# Schemas from catalog rows

`Snapshot.graph` puts the rows of a catalog together: columns in the order of their positions,
constraints, indexes and triggers at their tables, and registers the result.
-/

set_option autoImplicit false

namespace SchemaPlan.Catalog

/-- The first character of a code, a blank when there is none. -/
def firstChar (code : String) : Char :=
  code.toList.head?.getD ' '

/-! ## Rows -/

/-- The column of a row. -/
def ColumnRow.column (row : ColumnRow) : Except CatalogFault Column :=
  match DataType.parse row.type with
  | .error e => .error (.invalidType row.table row.name e)
  | .ok type =>
    .ok
      { name := row.name
        type := type
        nullable := row.nullable
        default := row.default.map .expression
        comment := row.comment }

namespace ConstraintRow

/-- The action under a code. -/
def action (row : ConstraintRow) (code : String) : Except CatalogFault ForeignKeyAction :=
  match ForeignKeyAction.ofCatalogCode? (firstChar code) with
  | some action => .ok action
  | none => .error (.unknownAction row.name code)

/-- The foreign key of a row. -/
def foreignKey (row : ConstraintRow) : Except CatalogFault ForeignKey :=
  match row.referencesTable with
  | none => .error (.missingReference row.name)
  | some table => do
    let onDelete ← row.action row.onDelete
    let onUpdate ← row.action row.onUpdate
    pure
      { columns := row.columns
        referencesTable := table
        referencesColumns := row.referencesColumns
        onDelete := onDelete
        onUpdate := onUpdate
        deferrable := row.deferrable
        initiallyDeferred := row.initiallyDeferred }

/-- The expression of a check; the whole definition when it can not be read. -/
def checkExpression (row : ConstraintRow) : String :=
  ((checked? row.definition.toList).map String.ofList).getD row.definition

/-- The constraint of a row. -/
def constraint (row : ConstraintRow) : Except CatalogFault Constraint :=
  match row.kind with
  | "p" => .ok ⟨row.name, .primaryKey row.columns⟩
  | "u" => .ok ⟨row.name, .unique row.columns⟩
  | "c" => .ok ⟨row.name, .check row.checkExpression⟩
  | "f" => row.foreignKey.map fun key => ⟨row.name, .foreignKey key⟩
  | code => .error (.unsupportedConstraint row.name code)

end ConstraintRow

/-- The index of a row; the whole definition is its expression when the keys can not be read. -/
def IndexRow.index (row : IndexRow) : Index :=
  let keys :=
    match IndexKeys.ofDefinition? row.definition.toList with
    | some keys => IndexKeys.read (String.ofList keys)
    | none => ([], some row.definition)
  { name := row.name
    table := row.table
    columns := keys.1
    expression := keys.2
    method := IndexMethod.parse row.method
    unique := row.unique
    predicate := row.predicate }

namespace TriggerRow

/-- Whether a bit of the flags is set; the lowest bit has the number zero. -/
def flag (row : TriggerRow) (bit : Nat) : Bool :=
  row.flags / Nat.pow 2 bit % 2 == 1

/-- When the trigger runs. -/
def timing (row : TriggerRow) : TriggerTiming :=
  if row.flag 6 then .insteadOf else if row.flag 1 then .before else .after

/-- The events under the bits of the flags. -/
def eventBits : List (Nat × TriggerEvent) :=
  [(2, .insert), (4, .update), (3, .delete), (5, .truncate)]

/-- The events on which the trigger runs. -/
def events (row : TriggerRow) : List TriggerEvent :=
  (eventBits.filter fun entry => row.flag entry.1).map Prod.snd

/-- The trigger of a row. -/
def trigger (row : TriggerRow) : Trigger :=
  { name := row.name
    table := row.table
    function := row.function
    timing := row.timing
    events := row.events
    scope := if row.flag 0 then .row else .statement
    oldTable := row.oldTable
    newTable := row.newTable
    condition := (condition? row.definition.toList).map String.ofList }

end TriggerRow

/-- The function of a row. -/
def FunctionRow.function (row : FunctionRow) : Except CatalogFault Function :=
  match Volatility.ofCatalogCode? (firstChar row.volatility) with
  | none => .error (.unknownVolatility row.name)
  | some volatility =>
    match ParallelSafety.ofCatalogCode? (firstChar row.parallel) with
    | none => .error (.unknownParallelMode row.name)
    | some parallel =>
      .ok
        { name := row.name
          arguments := row.arguments
          returns := row.returns
          language := row.language
          body := row.body
          volatility := volatility
          parallel := parallel
          dependsOn := [] }

/-! ## Tables -/

/-- Changes the table with a name; `kind` and `name` say what belongs to it. -/
def attach (tables : List Table) (kind name table : String) (change : Table → Table) :
    Except CatalogFault (List Table) :=
  if tables.any fun t => t.name == table then
    .ok (tables.map fun t => if t.name = table then change t else t)
  else .error (.unknownTable kind name table)

namespace Snapshot

/-- The tables without columns, by name; of rows with one name the last stays. -/
def bareTables (snapshot : Snapshot) : List Table :=
  Order.ofList Table.name
    (snapshot.tables.map fun row => { name := row.name, comment := row.comment })

/-- The columns by table and position. -/
def sortedColumns (snapshot : Snapshot) : List ColumnRow :=
  snapshot.columns.mergeSort fun a b =>
    ((compare a.table b.table).then (compare a.position b.position)).isLE

/-- Appends a column to its table. -/
def attachColumn (tables : List Table) (row : ColumnRow) : Except CatalogFault (List Table) := do
  let _ ← attach tables "column" row.name row.table id
  let column ← row.column
  attach tables "column" row.name row.table fun t => { t with columns := t.columns ++ [column] }

/-- Appends a constraint to its table. -/
def attachConstraint (tables : List Table) (row : ConstraintRow) :
    Except CatalogFault (List Table) := do
  let _ ← attach tables "constraint" row.name row.table id
  let constraint ← row.constraint
  attach tables "constraint" row.name row.table fun t => t.addConstraint constraint

/-- Appends an index to its table. -/
def attachIndex (tables : List Table) (row : IndexRow) : Except CatalogFault (List Table) :=
  attach tables "index" row.name row.table fun t => { t with indexes := t.indexes ++ [row.index] }

/-- Appends a trigger to its table. -/
def attachTrigger (tables : List Table) (row : TriggerRow) : Except CatalogFault (List Table) :=
  attach tables "trigger" row.name row.table fun t =>
    { t with triggers := t.triggers ++ [row.trigger] }

/-- The tables with all that belongs to them. -/
def assembledTables (snapshot : Snapshot) : Except CatalogFault (List Table) := do
  let tables ← snapshot.sortedColumns.foldlM attachColumn snapshot.bareTables
  let tables ← snapshot.constraints.foldlM attachConstraint tables
  let tables ← snapshot.indexes.foldlM attachIndex tables
  snapshot.triggers.foldlM attachTrigger tables

/-- All objects: extensions, enums, functions, tables. -/
def objects (snapshot : Snapshot) : Except CatalogFault (List SchemaObject) := do
  let tables ← snapshot.assembledTables
  let functions ← snapshot.functions.mapM FunctionRow.function
  pure (snapshot.extensions.map (fun row => .extension ⟨row.name⟩) ++
    snapshot.enums.map (fun row => .enum ⟨row.name, row.labels⟩) ++
    functions.map .function ++ tables.map .table)

/-- The graph of a catalog. -/
def graph (snapshot : Snapshot) : Except SchemaError SchemaGraph := do
  let objects ← snapshot.objects.mapError .catalog
  (register objects).mapError .unregistrable

end Snapshot

end SchemaPlan.Catalog
