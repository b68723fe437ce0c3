import SchemaPlan.Change.Operation
import SchemaPlan.Schema.Error

/-!
# Renaming

A rename changes an object or a column together with everything that refers to it by name.
Expressions are left as they are written.

* `renameObject` renames an object in a list of objects,
* `renameColumn` renames a column of a table.
-/

set_option autoImplicit false

namespace SchemaPlan.Change

/-- Whether an object has an identity, or is a table that holds the constraint with it. -/
def holds (object : SchemaObject) (id : ObjectId) : Bool :=
  object.id == id ||
    match object, id.kind, id.tableScope? with
    | .table table, .constraint, some (owner, name) =>
      table.name == owner && table.constraints.any fun constraint => constraint.name == name
    | _, _, _ => false

/-- The new name when a name is the old one, else the name. -/
def replaceName (old new name : String) : String :=
  if name = old then new else name

/-- A constraint after the rename of a table. -/
def constraintAfterTable (old new : String) (value : TableConstraint) : TableConstraint :=
  let kind :=
    match value.constraint.kind with
    | .foreignKey key =>
      .foreignKey { key with referencesTable := replaceName old new key.referencesTable }
    | kind => kind
  { table := replaceName old new value.table, constraint := { value.constraint with kind := kind } }

/-- An object after the rename of a table. -/
def afterTable (isTarget : Bool) (old new : String) : SchemaObject → SchemaObject
  | .table t => if isTarget then .table { t with name := new } else .table t
  | .constraint c => .constraint (constraintAfterTable old new c)
  | .index i => .index { i with table := replaceName old new i.table }
  | .trigger t => .trigger { t with table := replaceName old new t.table }
  | object => object

/-- An object after the rename of an enum type. -/
def afterEnum (isTarget : Bool) (old new : String) : SchemaObject → SchemaObject
  | .enum e => if isTarget then .enum { e with name := new } else .enum e
  | .table t =>
    .table { t with
      columns := t.columns.map fun column =>
        { column with type := column.type.renameEnum old new } }
  | object => object

/-- An object after the rename of a function. -/
def afterFunction (source target : ObjectId) (isTarget : Bool) (old new : String) :
    SchemaObject → SchemaObject
  | .function f =>
    .function { f with
      name := if isTarget then new else f.name
      dependsOn := f.dependsOn.map fun id => if id = source then target else id }
  | .trigger t => .trigger { t with function := replaceName old new t.function }
  | object => object

/-- An object after the rename of a constraint of a table. -/
def afterConstraint (isTarget : Bool) (table : Option String) (old new : String) :
    SchemaObject → SchemaObject
  | .constraint c =>
    if isTarget then .constraint { c with constraint := { c.constraint with name := new } }
    else .constraint c
  | .table t =>
    if table = some t.name then
      .table { t with
        constraints := t.constraints.map fun constraint =>
          { constraint with name := replaceName old new constraint.name } }
    else .table t
  | object => object

/-- An object after the rename of another or of itself. -/
def afterRename (source target : ObjectId) (old new : String) (object : SchemaObject) :
    SchemaObject :=
  let isTarget := object.id == source
  match source.kind with
  | .extension => object
  | .table => afterTable isTarget old new object
  | .enum => afterEnum isTarget old new object
  | .function => afterFunction source target isTarget old new object
  | .constraint => afterConstraint isTarget (source.tableScope?.map Prod.fst) old new object
  | .index =>
    match object with
    | .index i => if isTarget then .index { i with name := new } else .index i
    | object => object
  | .trigger =>
    match object with
    | .trigger t => if isTarget then .trigger { t with name := new } else .trigger t
    | object => object

/-- The names before and after a rename, without their table, which can not change. -/
def renamedNames (source target : ObjectId) : Except SchemaError (String × String) :=
  match source.tableScope?, target.tableScope? with
  | some (oldTable, old), some (newTable, new) =>
    if oldTable = newTable then .ok (old, new)
    else .error (.unsupportedChange source .otherTable)
  | none, none => .ok (source.name, target.name)
  | _, _ => .error (.unsupportedChange source .malformedName)

/-- Renames an object together with every reference to it.  Extensions can not be renamed. -/
def renameObject (objects : List SchemaObject) (source target : ObjectId) :
    Except SchemaError (List SchemaObject) := do
  if !objects.any fun object => holds object source then
    .error (.unknown (.renameTo target) (.object source))
  if objects.any fun object => holds object target then
    .error (.duplicate (.object target))
  let (old, new) ← renamedNames source target
  if source.kind = .extension then .error (.unsupportedChange source .extensionRename)
  pure (objects.map (afterRename source target old new))

/-! ## Columns -/

/-- A demand of a table after the rename of one of its columns. -/
def kindAfterColumn (old new : String) : ConstraintKind → ConstraintKind
  | .primaryKey columns => .primaryKey (columns.map (replaceName old new))
  | .unique columns => .unique (columns.map (replaceName old new))
  | .foreignKey key => .foreignKey { key with columns := key.columns.map (replaceName old new) }
  | .check expression => .check expression

/-- A foreign key of a table after the rename of a column of some table. -/
def keyAfterColumn (owner table old new : String) (key : ForeignKey) : ForeignKey :=
  { key with
    columns := if owner = table then key.columns.map (replaceName old new) else key.columns
    referencesColumns :=
      if key.referencesTable = table then key.referencesColumns.map (replaceName old new)
      else key.referencesColumns }

/-- An object after the rename of a column of a table. -/
def afterColumn (table old new : String) : SchemaObject → SchemaObject
  | .table t =>
    if t.name = table then
      .table { t with
        columns := Table.updateFirst old (fun column => { column with name := new }) t.columns
        constraints := t.constraints.map fun constraint =>
          { constraint with kind := kindAfterColumn old new constraint.kind } }
    else .table t
  | .constraint c =>
    match c.constraint.kind with
    | .foreignKey key =>
      .constraint { c with
        constraint := { c.constraint with
          kind := .foreignKey (keyAfterColumn c.table table old new key) } }
    | _ => .constraint c
  | .index i =>
    if i.table = table then .index { i with columns := i.columns.map (replaceName old new) }
    else .index i
  | object => object

/-- The table with a name in a list of objects. -/
def findTable? (objects : List SchemaObject) (name : String) : Option Table :=
  objects.findSome? fun
    | .table table => if table.name = name then some table else none
    | _ => none

/-- Renames a column together with the constraints and indexes that list it. -/
def renameColumn (objects : List SchemaObject) (table source target : String) :
    Except SchemaError (List SchemaObject) :=
  match findTable? objects table with
  | none => .error (.unknown (.columnRename source) (.object (.table table)))
  | some owner =>
    if (owner.column? target).isSome then .error (.duplicate (.column table target))
    else if (owner.column? source).isNone then
      .error (.unknown (.columnRenameTo table target) (.column table source))
    else .ok (objects.map (afterColumn table source target))

end SchemaPlan.Change
