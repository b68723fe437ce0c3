import SchemaPlan.Change.Candidate
import SchemaPlan.Change.Options
import SchemaPlan.Schema.Error

/-!
# Comparing definitions

An object that is declared and live stays as it is, is altered in place, or is dropped and
created again.  `compareObjects` decides which.

* Tables are altered: constraints and columns go first (`removals`), then columns and constraints
  come and columns change (`additions`).
* Enum types are altered by adding labels; the live labels keep their order.
* Functions are replaced in place unless their signature changes.
* All other objects are created again.
-/

set_option autoImplicit false

namespace SchemaPlan.Change

/-- How an object that is declared and live changes. -/
inductive Update where
  | recreate
  | alter (removals additions : List AlterChange)
deriving DecidableEq, Repr

/-- An alteration, unless there is nothing to alter. -/
def Update.ofChanges (removals additions : List AlterChange) : Option Update :=
  if removals.isEmpty && additions.isEmpty then none else some (.alter removals additions)

/-! ## Enum types -/

/-- What is left of the live labels when the declared ones have been taken from them in order. -/
def unmatchedLabels : List String → List String → List String
  | _, [] => []
  | [], live => live
  | label :: declared, first :: live =>
    if label = first then unmatchedLabels declared live
    else unmatchedLabels declared (first :: live)

/-- The new labels with their places: behind the declared label before, or before the first live
label. -/
def newLabels (live : List String) : Option String → List String → List AlterChange
  | _, [] => []
  | previous, label :: rest =>
    let more := newLabels live (some label) rest
    if live.contains label then more
    else
      let position :=
        match previous, live with
        | some other, _ => .after other
        | none, first :: _ => .before first
        | none, [] => .last
      .addEnumLabel label position :: more

/-- The change of an enum type; labels can not go or change their order. -/
def compareEnums (declared live : EnumType) : Except ChangeObstacle (Option Update) :=
  if !(unmatchedLabels declared.labels live.labels).isEmpty then .error .lostLabels
  else .ok (Update.ofChanges [] (newLabels live.labels none declared.labels))

/-! ## Tables -/

/-- The change of a column's type. -/
def compareTypes (options : DiffOptions) (declared live : Column) :
    Except ChangeObstacle (List AlterChange) :=
  if declared.type = live.type then .ok []
  else if live.type.convertsLosslesslyTo declared.type || options.allowLossyTypes then
    .ok [.alterColumnType declared.name live.type declared.type]
  else .error (.lossyType declared.name live.type declared.type)

/-- The default to set: null is the same as none. -/
def settableDefault (default : Option DefaultValue) : Option DefaultValue :=
  default.filter (· != .null)

/-- The changes of a column. -/
def compareColumns (options : DiffOptions) (declared live : Column) :
    Except ChangeObstacle (List AlterChange) := do
  let types ← compareTypes options declared live
  let nullable :=
    if declared.nullable = live.nullable then []
    else [.setNullable declared.name declared.nullable]
  let default :=
    if DefaultValue.canonicalSql? declared.default = DefaultValue.canonicalSql? live.default then []
    else [.setDefault declared.name (settableDefault declared.default)]
  let comment :=
    if declared.comment = live.comment then []
    else [.setColumnComment declared.name declared.comment]
  pure (types ++ nullable ++ default ++ comment)

/-- The constraints of one table that the other does not have in an equivalent form. -/
def constraintsNotIn (table other : Table) : List Constraint :=
  table.constraints.filter fun constraint =>
    !other.constraints.any fun c => c.canonical == constraint.canonical

/-- The columns of one table that the other does not have. -/
def columnsNotIn (table other : Table) : List Column :=
  table.columns.filter fun column => (other.column? column.name).isNone

/-- What changes in a table. -/
structure TableChanges where
  removals : List AlterChange
  additions : List AlterChange
  /-- Whether a key goes on which foreign keys may rely. -/
  dropsKey : Bool
  candidates : List RenameCandidate

/-- A column that comes, or the changes of one that stays. -/
def compareColumn (options : DiffOptions) (live : Table) (column : Column) :
    Except ChangeObstacle (List AlterChange) :=
  match live.column? column.name with
  | none => .ok [.addColumn column]
  | some existing => compareColumns options column existing

/-- The changes of a table. -/
def compareTables (options : DiffOptions) (declared live : Table) :
    Except ChangeObstacle TableChanges := do
  let gone := constraintsNotIn live declared
  let dropped := columnsNotIn live declared
  let columns ← declared.columns.mapM (compareColumn options live)
  let comment := if declared.comment = live.comment then [] else [.setComment declared.comment]
  pure
    { removals := gone.map .dropConstraint ++ dropped.map .dropColumn
      additions :=
        columns.flatten ++ (constraintsNotIn declared live).map .addConstraint ++ comment
      dropsKey := gone.any fun constraint => constraint.kind.isKey
      candidates :=
        columnCandidates declared.name dropped (columnsNotIn declared live) options.threshold }

/-! ## Objects -/

/-- The outcome of a comparison. -/
structure Verdict where
  change : Option Update
  dropsKey : Bool := false
  candidates : List RenameCandidate := []

/-- The change of a function. -/
def compareFunctions (declared live : Function) : Option Update :=
  if declared.signature ≠ live.signature then some .recreate
  else if declared.canonical = live.canonical then none
  else some (.alter [] [.replaceFunction declared])

/-- Compares the two definitions of an object. -/
def compareObjects (options : DiffOptions) (declared live : SchemaObject) :
    Except SchemaError Verdict :=
  let outcome : Except ChangeObstacle Verdict :=
    match declared, live with
    | .extension _, _ => .ok ⟨none, false, []⟩
    | .enum d, .enum l => (compareEnums d l).map fun change => ⟨change, false, []⟩
    | .function d, .function l => .ok ⟨compareFunctions d l, false, []⟩
    | .table d, .table l =>
      (compareTables options d l).map fun changes =>
        ⟨Update.ofChanges changes.removals changes.additions, changes.dropsKey, changes.candidates⟩
    | d, l => .ok ⟨if d.equivalent l then none else some .recreate, false, []⟩
  outcome.mapError (.unsupportedChange declared.id)

end SchemaPlan.Change
