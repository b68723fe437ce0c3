import SchemaPlan.Schema.Column
import SchemaPlan.Schema.Constraint
import SchemaPlan.Schema.Index
import SchemaPlan.Schema.Trigger

/-!
# Tables

A table with what belongs to it.  A `ColumnSpec` is a column together with the constraints that
are written at the column; `Table.addColumn` moves them to the table.
-/

set_option autoImplicit false

namespace SchemaPlan

/-- A table. -/
structure Table where
  name : String
  columns : List Column := []
  constraints : List Constraint := []
  indexes : List Index := []
  triggers : List Trigger := []
  comment : Option String := none
deriving DecidableEq, Repr

/-- A column with the constraints that are written at it. -/
structure ColumnSpec where
  column : Column
  primaryKey : Bool := false
  unique : Bool := false
  check : Option String := none
  references : Option ForeignKey := none
deriving DecidableEq, Repr

namespace ColumnSpec

/-- A nullable column without a default. -/
def ofType (name : String) (type : DataType) : ColumnSpec :=
  { column := { name := name, type := type } }

/-- Sets whether the column may be null. -/
def setNullable (spec : ColumnSpec) (nullable : Bool) : ColumnSpec :=
  { spec with column := { spec.column with nullable := nullable } }

/-- Makes the column the primary key, which is never null. -/
def asPrimaryKey (spec : ColumnSpec) : ColumnSpec :=
  { (spec.setNullable false) with primaryKey := true }

/-- Sets the default. -/
def withDefault (spec : ColumnSpec) (value : DefaultValue) : ColumnSpec :=
  { spec with column := { spec.column with default := some value } }

/-- Sets the comment. -/
def withComment (spec : ColumnSpec) (comment : String) : ColumnSpec :=
  { spec with column := { spec.column with comment := some comment } }

/-- Makes the column reference a column of another table. -/
def referencing (spec : ColumnSpec) (table column : String)
    (onDelete onUpdate : ForeignKeyAction) : ColumnSpec :=
  let key : ForeignKey :=
    { columns := [spec.column.name], referencesTable := table, referencesColumns := [column],
      onDelete := onDelete, onUpdate := onUpdate }
  { spec with references := some key }

/-- The constraints of the column, without names: primary key, unique, check, foreign key. -/
def constraints (spec : ColumnSpec) : List Constraint :=
  let name := spec.column.name
  (if spec.primaryKey then [{ kind := .primaryKey [name] }] else []) ++
    (if spec.unique then [{ kind := .unique [name] }] else []) ++
    (spec.check.toList.map fun expression => { kind := .check expression }) ++
    (spec.references.toList.map fun key => { kind := .foreignKey key })

end ColumnSpec

namespace Table

/-- The column with a name. -/
def column? (table : Table) (name : String) : Option Column :=
  table.columns.find? fun column => column.name == name

theorem column?_isSome_iff {t : Table} {name : String} :
    (t.column? name).isSome = true ↔ name ∈ t.columns.map Column.name := by
  rw [Table.column?, List.find?_isSome, List.mem_map]
  simp only [beq_iff_eq]

/-- Changes the first column with a name. -/
def updateFirst (name : String) (change : Column → Column) : List Column → List Column
  | [] => []
  | column :: rest =>
    if column.name = name then change column :: rest else column :: updateFirst name change rest

/-- Changes the first column with a name; none when there is none. -/
def updateColumn? (table : Table) (name : String) (change : Column → Column) : Option Table :=
  if (table.column? name).isNone then none
  else some { table with columns := updateFirst name change table.columns }

/-- The first primary key. -/
def primaryKey? (table : Table) : Option Constraint :=
  table.constraints.find? fun constraint =>
    match constraint.kind with
    | .primaryKey _ => true
    | _ => false

/-- Appends a column and its constraints. -/
def addColumn (table : Table) (spec : ColumnSpec) : Table :=
  { table with
    columns := table.columns ++ [spec.column]
    constraints := table.constraints ++ spec.constraints }

/-- Appends a constraint. -/
def addConstraint (table : Table) (constraint : Constraint) : Table :=
  { table with constraints := table.constraints ++ [constraint] }

/-- Appends an index of this table. -/
def addIndex (table : Table) (index : Index) : Table :=
  { table with indexes := table.indexes ++ [{ index with table := table.name }] }

/-- Appends a trigger of this table. -/
def addTrigger (table : Table) (trigger : Trigger) : Table :=
  { table with triggers := table.triggers ++ [{ trigger with table := table.name }] }

end Table

end SchemaPlan
