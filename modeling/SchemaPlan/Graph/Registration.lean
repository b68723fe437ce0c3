import SchemaPlan.Expression.Calls
import SchemaPlan.Graph.Basic
import SchemaPlan.Schema.Declaration
import SchemaPlan.Schema.Error
import SchemaPlan.Schema.Naming

/-!
# Registration

`register` turns a list of objects into a graph.

1. A table gives up its foreign keys, indexes and triggers, which become objects of their own
   (`SchemaObject.parts`).
2. Constraints and indexes without names get computed ones (`SchemaObject.withName`).
3. No two objects may have one identity (`collect`).
4. Custom column types that name an enum become enum types (`resolveEnums`).
5. Every reference has to lead to an object or column (`check`), and the references become
   dependencies (`dependencies`).
-/

set_option autoImplicit false

namespace SchemaPlan

namespace Constraint

/-- The constraint of a table with a computed name when it has none. -/
def withName (constraint : Constraint) (table : String) : Constraint :=
  if constraint.name = "" then { constraint with name := constraint.kind.computedName table }
  else constraint

end Constraint

namespace Table

/-- The foreign keys of a table, as objects of their own. -/
def foreignKeys (table : Table) : List TableConstraint :=
  (table.constraints.filter fun constraint => constraint.kind.isForeignKey).map fun constraint =>
    ⟨table.name, constraint⟩

/-- The table without its foreign keys, indexes and triggers. -/
def bare (table : Table) : Table :=
  { table with
    constraints := table.constraints.filter fun constraint => !constraint.kind.isForeignKey
    indexes := []
    triggers := [] }

/-- The indexes; one that names no table is one of this table. -/
def ownIndexes (table : Table) : List Index :=
  table.indexes.map fun index =>
    if index.table = "" then { index with table := table.name } else index

/-- The triggers; one that names no table is one of this table. -/
def ownTriggers (table : Table) : List Trigger :=
  table.triggers.map fun trigger =>
    if trigger.table = "" then { trigger with table := table.name } else trigger

end Table

namespace SchemaObject

/-- A table is split into itself and what belongs to it. -/
def parts : SchemaObject → List SchemaObject
  | .table t =>
    .table t.bare :: (t.foreignKeys.map .constraint ++ t.ownIndexes.map .index ++
      t.ownTriggers.map .trigger)
  | object => [object]

/-- Gives computed names to the constraints and the index that have none. -/
def withName : SchemaObject → SchemaObject
  | .table t =>
    .table { t with constraints := t.constraints.map fun constraint => constraint.withName t.name }
  | .constraint value =>
    .constraint { value with constraint := value.constraint.withName value.table }
  | .index i => if i.name = "" then .index { i with name := i.computedName } else .index i
  | object => object

/-- Turns the custom types of the columns of a table that name an enum into enum types. -/
def resolveEnums (isEnum : String → Bool) : SchemaObject → SchemaObject
  | .table t =>
    .table { t with
      columns := t.columns.map fun column =>
        { column with type := column.type.resolveEnums isEnum } }
  | object => object

end SchemaObject

namespace Registration

/-- Adds objects to those that ascend by identity; an identity may not occur twice. -/
def collect : List SchemaObject → List SchemaObject → Except SchemaError (List SchemaObject)
  | collected, [] => .ok collected
  | collected, object :: rest =>
    if collected.any fun other => other.id == object.id then
      .error (.duplicate (.object object.id))
    else collect (Order.insertBy SchemaObject.id object collected) rest

/-- The names of the objects of a kind. -/
def namesOf (objects : List SchemaObject) (kind : ObjectKind) : List String :=
  (objects.filter fun object => object.kind == kind).map fun object => object.id.name

/-- The identities of the extensions. -/
def extensions (objects : List SchemaObject) : List ObjectId :=
  (objects.filter fun object => object.kind == .extension).map SchemaObject.id

/-- Turns custom column types that name an enum of the schema into enum types. -/
def resolveEnums (objects : List SchemaObject) : List SchemaObject :=
  let enums := namesOf objects .enum
  objects.map (SchemaObject.resolveEnums enums.contains)

/-- The table with a name. -/
def table? (objects : List SchemaObject) (name : String) : Option Table :=
  objects.findSome? fun
    | .table table => if table.name = name then some table else none
    | _ => none

/-! ## References -/

/-- Fails unless an identity is one of an object. -/
def requireObject (objects : List SchemaObject) (source id : ObjectId) : Except SchemaError Unit :=
  if objects.any fun object => object.id == id then .ok ()
  else .error (.dangling source (.object id))

/-- The table with a name; fails when there is none. -/
def requireTable (objects : List SchemaObject) (source : ObjectId) (name : String) :
    Except SchemaError Table :=
  match table? objects name with
  | some table => .ok table
  | none => .error (.dangling source (.object (.table name)))

/-- Fails at the first name that is no column of a table. -/
def requireColumns (source : ObjectId) (table : Table) : List String → Except SchemaError Unit
  | [] => .ok ()
  | name :: rest =>
    if (table.column? name).isSome then requireColumns source table rest
    else .error (.dangling source (.column table.name name))

/-- Fails at the first label that repeats an earlier one. -/
def checkLabels (type : String) : List String → List String → Except SchemaError Unit
  | _, [] => .ok ()
  | seen, label :: rest =>
    if seen.contains label then .error (.duplicate (.enumLabel type label))
    else checkLabels type (label :: seen) rest

/-- Fails at the first column that repeats an earlier name or has an unknown enum type. -/
def checkColumns (objects : List SchemaObject) (table : Table) :
    List String → List Column → Except SchemaError Unit
  | _, [] => .ok ()
  | seen, column :: rest => do
    if seen.contains column.name then .error (.duplicate (.column table.name column.name))
    if let some name := column.type.enumName? then
      requireObject objects (.table table.name) ⟨.enum, name⟩
    checkColumns objects table (column.name :: seen) rest

/-- Fails at the first dangling reference or repeated name of an object. -/
def check (objects : List SchemaObject) (object : SchemaObject) : Except SchemaError Unit :=
  match object with
  | .extension _ => .ok ()
  | .enum type => checkLabels type.name [] type.labels
  | .function function => function.dependsOn.forM (requireObject objects object.id)
  | .table table => do
    checkColumns objects table [] table.columns
    table.constraints.forM fun constraint =>
      requireColumns object.id table constraint.kind.columns
  | .constraint value => do
    let table ← requireTable objects object.id value.table
    requireColumns object.id table value.constraint.kind.columns
    if let some key := value.constraint.foreignKey? then
      let target ← requireTable objects object.id key.referencesTable
      requireColumns object.id target key.referencesColumns
  | .index index => do
    let table ← requireTable objects object.id index.table
    requireColumns object.id table index.columns
  | .trigger trigger => do
    let _ ← requireTable objects object.id trigger.table
    requireObject objects object.id ⟨.function, trigger.function⟩

/-! ## Dependencies -/

/-- The functions of the schema that an expression calls. -/
def calls (objects : List SchemaObject) (expression : String) : List ObjectId :=
  ((Expression.calledFunctions expression).filter (namesOf objects .function).contains).map
    fun name => ⟨.function, name⟩

/-- What a column depends on: its enum type, all extensions when its type is a custom one, and
the functions that its default calls. -/
def columnDependencies (objects : List SchemaObject) (column : Column) : List ObjectId :=
  (column.type.enumName?.toList.map fun name => ⟨.enum, name⟩) ++
    (if column.type.customName?.isSome then extensions objects else []) ++
    ((column.default.bind DefaultValue.expression?).toList.flatMap (calls objects))

/-- The functions that the demand of a constraint calls. -/
def checkDependencies (objects : List SchemaObject) (constraint : Constraint) : List ObjectId :=
  match constraint.kind with
  | .check expression => calls objects expression
  | _ => []

/-- What an object refers to, in any order. -/
def references (objects : List SchemaObject) : SchemaObject → List ObjectId
  | .extension _ | .enum _ => []
  | .function function => function.dependsOn
  | .table table =>
    table.columns.flatMap (columnDependencies objects) ++
      table.constraints.flatMap (checkDependencies objects)
  | .constraint value =>
    .table value.table ::
      (value.constraint.foreignKey?.toList.map fun key => .table key.referencesTable)
  | .index index =>
    .table index.table ::
      ((index.expression.toList ++ index.predicate.toList).flatMap (calls objects) ++
        if index.method.isBuiltinOrdered then [] else extensions objects)
  | .trigger trigger => [.table trigger.table, ⟨.function, trigger.function⟩]

/-- The identities that must exist before an object. -/
def dependencies (objects : List SchemaObject) (object : SchemaObject) : List ObjectId :=
  Order.setOf (references objects object)

end Registration

open Registration in
/-- The graph of a list of objects. -/
def register (objects : List SchemaObject) : Except SchemaError SchemaGraph := do
  let collected ← collect [] ((objects.flatMap SchemaObject.parts).map SchemaObject.withName)
  let resolved := resolveEnums collected
  resolved.forM (check resolved)
  pure (.ofNodes (resolved.map fun object => ⟨object, dependencies resolved object⟩))

/-- The graph of a declaration. -/
def Declaration.register (declaration : Declaration) : Except SchemaError SchemaGraph :=
  SchemaPlan.register declaration.objects

namespace Registration

/-- The constraints among objects that belong to a table. -/
def constraintsOf (objects : List SchemaObject) (table : String) : List Constraint :=
  objects.filterMap fun
    | .constraint value => if value.table = table then some value.constraint else none
    | _ => none

/-- The indexes among objects that belong to a table. -/
def indexesOf (objects : List SchemaObject) (table : String) : List Index :=
  objects.filterMap fun
    | .index index => if index.table = table then some index else none
    | _ => none

/-- The triggers among objects that belong to a table. -/
def triggersOf (objects : List SchemaObject) (table : String) : List Trigger :=
  objects.filterMap fun
    | .trigger trigger => if trigger.table = table then some trigger else none
    | _ => none

end Registration

open Registration in
/-- A table with the foreign keys, indexes and triggers among objects that belong to it. -/
def Table.reattached (objects : List SchemaObject) (table : Table) : Table :=
  { table with
    constraints := table.constraints ++ constraintsOf objects table.name
    indexes := table.indexes ++ indexesOf objects table.name
    triggers := table.triggers ++ triggersOf objects table.name }

/-- The declaration that a graph stands for: foreign keys, indexes and triggers are put back to
their tables. -/
def SchemaGraph.toDeclaration (graph : SchemaGraph) (name : String) : Declaration :=
  { name := name
    extensions := graph.objects.filterMap fun
      | .extension extension => some extension.name
      | _ => none
    enums := graph.objects.filterMap fun
      | .enum type => some type
      | _ => none
    functions := graph.objects.filterMap fun
      | .function function => some function
      | _ => none
    tables := graph.objects.filterMap fun
      | .table table => some (table.reattached graph.objects)
      | _ => none }

end SchemaPlan
