import SchemaPlan.Change.Options
import SchemaPlan.Change.Renaming
import SchemaPlan.Graph.Registration

/-!
# Confirmed renames

The hints of the user are applied to the live schema before it is compared.  A name that was
computed from a renamed table or column is renamed with it when the declared schema has the new
name, so that keys are kept.
-/

set_option autoImplicit false

namespace SchemaPlan.Change

/-- Whether a graph has an object, or a table with the constraint, of an identity. -/
def declares (declared : SchemaGraph) (id : ObjectId) : Bool :=
  declared.contains id ||
    match id.kind, id.tableScope? with
    | .constraint, some (table, name) =>
      (declared.table? table).any fun t => t.constraints.any fun c => c.name == name
    | _, _ => false

/-! ## Computed names -/

/-- The place of a constraint or index in a list of objects: of the object, and of the constraint
in it when the object is a table. -/
structure NamePlace where
  position : Nat
  constraint : Option Nat
deriving DecidableEq, Repr

/-- The identity of a constraint or index and the one with the computed name. -/
structure NamePair where
  current : ObjectId
  computed : ObjectId
deriving DecidableEq, Repr

/-- The names of a constraint of a table. -/
def constraintNames (table : String) (constraint : Constraint) : NamePair :=
  ⟨.within .constraint table constraint.name,
    .within .constraint table (constraint.kind.computedName table)⟩

/-- The names of what stands at a place of an object. -/
def namesAt (object : SchemaObject) (slot : Option Nat) : Option NamePair :=
  match object, slot with
  | .table table, some i => (table.constraints[i]?).map (constraintNames table.name)
  | .constraint c, none => some (constraintNames c.table c.constraint)
  | .index index, none => some ⟨⟨.index, index.name⟩, ⟨.index, index.computedName⟩⟩
  | _, _ => none

/-- The places in an object. -/
def placesIn : SchemaObject → List (Option Nat)
  | .table table => (List.range table.constraints.length).map some
  | .constraint _ | .index _ => [none]
  | _ => []

/-- The places in a list of objects, from a position on, where a computed name stands. -/
def computedPlacesFrom (position : Nat) : List SchemaObject → List NamePlace
  | [] => []
  | object :: rest =>
    ((placesIn object).filter fun slot =>
        (namesAt object slot).any fun names => names.current == names.computed).map
      (fun slot => ⟨position, slot⟩) ++ computedPlacesFrom (position + 1) rest

/-- Renamed objects with the operations that lead to them, in order. -/
structure Renamed where
  objects : List SchemaObject
  operations : List Operation

/-- Renames what stands at a place when its name is out of date and the new one is declared. -/
def refresh (declared : SchemaGraph) (renamed : Renamed) (place : NamePlace) :
    Except SchemaError Renamed :=
  match (renamed.objects[place.position]?).bind fun object => namesAt object place.constraint with
  | none => .ok renamed
  | some names =>
    if names.current = names.computed || !declares declared names.computed then .ok renamed
    else do
      let objects ← renameObject renamed.objects names.current names.computed
      pure ⟨objects, renamed.operations ++ [.rename names.current names.computed]⟩

/-! ## Hints -/

/-- Applies the hint of an object. -/
def applyHint (declared : SchemaGraph) (renamed : Renamed) (hint : RenameHint) :
    Except SchemaError Renamed := do
  if !declares declared hint.targetId then
    .error (.unknown (.renameHint hint.text) (.object hint.targetId))
  let objects ← renameObject renamed.objects hint.sourceId hint.targetId
  pure ⟨objects, renamed.operations ++ [.rename hint.sourceId hint.targetId]⟩

/-- Applies the hint of a column. -/
def applyColumnHint (declared : SchemaGraph) (renamed : Renamed) (hint : ColumnRenameHint) :
    Except SchemaError Renamed := do
  if ((declared.table? hint.table).bind fun t => t.column? hint.target).isNone then
    .error (.unknown (.renameHint hint.text) (.column hint.table hint.target))
  let objects ← renameColumn renamed.objects hint.table hint.source hint.target
  let change := AlterChange.renameColumn hint.source hint.target
  pure ⟨objects, renamed.operations ++ [.alter (.table hint.table) [change]]⟩

/-- The live graph after the hints, and the operations that rename: objects, then columns, then
computed names. -/
def applyHints (live declared : SchemaGraph) (options : DiffOptions) :
    Except SchemaError (SchemaGraph × List Operation) := do
  if options.renames.isEmpty && options.columnRenames.isEmpty then pure (live, [])
  else
    let places := computedPlacesFrom 0 live.objects
    let renamed ← options.renames.foldlM (applyHint declared) ⟨live.objects, []⟩
    let renamed ← options.columnRenames.foldlM (applyColumnHint declared) renamed
    let renamed ← places.foldlM (refresh declared) renamed
    let graph ← register renamed.objects
    pure (graph, renamed.operations)

end SchemaPlan.Change
