import SchemaPlan.Change.Renaming
import SchemaPlan.Graph.Registration

/-!
# Running operations on a graph

`ChangeSet.applyTo` gives the schema that operations lead to, without a database.
-/

set_option autoImplicit false

namespace SchemaPlan.Change

/-- Replaces the first object with an identity by a change of it; the change may fail, and so
does a missing object. -/
def updateObject (objects : List SchemaObject) (id : ObjectId)
    (change : SchemaObject → Option SchemaObject) : Option (List SchemaObject) :=
  match objects with
  | [] => none
  | object :: rest =>
    if object.id = id then (change object).map fun changed => changed :: rest
    else (updateObject rest id change).map fun rest => object :: rest

/-- Removes the first object with an identity. -/
def removeObject? (objects : List SchemaObject) (id : ObjectId) : Option (List SchemaObject) :=
  if objects.any fun object => object.id == id then
    some (objects.eraseP fun object => object.id == id)
  else none

/-- The labels of an enum type with a new one; none when the label next to it is missing. -/
def insertLabel? (label : String) (position : LabelPosition) (labels : List String) :
    Option (List String) :=
  let place :=
    match position with
    | .before other => labels.idxOf? other
    | .after other => (labels.idxOf? other).map (· + 1)
    | .last => some labels.length
  place.map fun place => labels.insertIdx place label

/-- A table after one change; none when the change does not fit. -/
def alterTable? (table : Table) : AlterChange → Option Table
  | .addColumn column => some { table with columns := table.columns ++ [column] }
  | .dropColumn column =>
    if (table.column? column.name).isNone then none
    else some { table with columns := table.columns.eraseP fun c => c.name == column.name }
  | .alterColumnType name _ type => table.updateColumn? name fun c => { c with type := type }
  | .setNullable name nullable => table.updateColumn? name fun c => { c with nullable := nullable }
  | .setDefault name default => table.updateColumn? name fun c => { c with default := default }
  | .setColumnComment name comment =>
    table.updateColumn? name fun c => { c with comment := comment }
  | .addConstraint constraint => some (table.addConstraint constraint)
  | .dropConstraint constraint =>
    some { table with constraints := table.constraints.filter fun c => c.name != constraint.name }
  | .setComment comment => some { table with comment := comment }
  | .renameColumn _ _ | .addEnumLabel _ _ | .replaceFunction _ => none

/-- An object after one change; none when the change does not fit. -/
def alterObject? (change : AlterChange) : SchemaObject → Option SchemaObject
  | .enum type =>
    match change with
    | .addEnumLabel label position =>
      (insertLabel? label position type.labels).map fun labels =>
        .enum { type with labels := labels }
    | _ => none
  | .function _ =>
    match change with
    | .replaceFunction function => some (.function function)
    | _ => none
  | .table table => (alterTable? table change).map .table
  | _ => none

/-- Makes one change of an object.  Foreign keys are objects of their own, and a column is renamed
with all its references. -/
def alter (objects : List SchemaObject) (target : ObjectId) (change : AlterChange) :
    Except SchemaError (List SchemaObject) :=
  let orMissing (result : Option (List SchemaObject)) : Except SchemaError (List SchemaObject) :=
    match result with
    | some objects => .ok objects
    | none => .error (.unknown .alteration (.object target))
  match change with
  | .renameColumn source new => renameColumn objects target.name source new
  | .addConstraint constraint =>
    if constraint.kind.isForeignKey then .ok (objects ++ [.constraint ⟨target.name, constraint⟩])
    else orMissing (updateObject objects target (alterObject? change))
  | .dropConstraint constraint =>
    if constraint.kind.isForeignKey then
      orMissing (removeObject? objects (.within .constraint target.name constraint.name))
    else orMissing (updateObject objects target (alterObject? change))
  | _ => orMissing (updateObject objects target (alterObject? change))

/-- Runs one operation. -/
def run (objects : List SchemaObject) : Operation → Except SchemaError (List SchemaObject)
  | .create object =>
    if objects.any fun other => other.id == object.id then
      .error (.duplicate (.object object.id))
    else .ok (objects ++ [object])
  | .drop object =>
    match removeObject? objects object.id with
    | some objects => .ok objects
    | none => .error (.unknown .removal (.object object.id))
  | .rename source target => renameObject objects source target
  | .alter target changes => changes.foldlM (fun objects change => alter objects target change) objects

/-- The graph to which operations lead from a graph. -/
def applyTo (operations : List Operation) (graph : SchemaGraph) : Except SchemaError SchemaGraph := do
  let objects ← operations.foldlM run graph.objects
  register objects

end SchemaPlan.Change
