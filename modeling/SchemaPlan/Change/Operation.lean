import SchemaPlan.Number.Shortest
import SchemaPlan.Schema.Object

/-!
# Operations

The steps from one schema to another.  An operation creates, drops, alters or renames an object;
an alteration is a list of changes.  `isDestructive` marks what can lose data or break references
by name.
-/

set_option autoImplicit false

namespace SchemaPlan

/-- Where a new enum label goes. -/
inductive LabelPosition where
  | before (label : String)
  | after (label : String)
  | last
deriving DecidableEq, Repr

/-- One change of an object. -/
inductive AlterChange where
  | addColumn (column : Column)
  | dropColumn (column : Column)
  | renameColumn (source target : String)
  | alterColumnType (column : String) (source target : DataType)
  | setNullable (column : String) (nullable : Bool)
  | setDefault (column : String) (default : Option DefaultValue)
  | setColumnComment (column : String) (comment : Option String)
  | addConstraint (constraint : Constraint)
  | dropConstraint (constraint : Constraint)
  | setComment (comment : Option String)
  | addEnumLabel (label : String) (position : LabelPosition)
  | replaceFunction (function : Function)
deriving DecidableEq, Repr

namespace AlterChange

/-- Whether the change can lose data or break references by name. -/
def isDestructive : AlterChange → Bool
  | dropColumn _ | renameColumn _ _ => true
  | alterColumnType _ source target => !source.convertsLosslesslyTo target
  | _ => false

/-- The change in words. -/
def text : AlterChange → String
  | addColumn column => "add column " ++ column.name
  | dropColumn column => "drop column " ++ column.name
  | renameColumn source target => "rename column " ++ source ++ " to " ++ target
  | alterColumnType column source target =>
    "alter column " ++ column ++ " type " ++ source.toText ++ " -> " ++ target.toText
  | setNullable column nullable =>
    (if nullable then "drop not null on " else "set not null on ") ++ column
  | setDefault column (some value) => "set default " ++ value.sql ++ " on " ++ column
  | setDefault column none => "drop default on " ++ column
  | setColumnComment column _ => "comment on column " ++ column
  | addConstraint constraint =>
    "add " ++ constraint.kind.label ++ " constraint " ++ constraint.name
  | dropConstraint constraint =>
    "drop " ++ constraint.kind.label ++ " constraint " ++ constraint.name
  | setComment _ => "comment on table"
  | addEnumLabel label _ => "add value " ++ label
  | replaceFunction _ => "replace body"

end AlterChange

/-- A step from one schema to another. -/
inductive Operation where
  | create (object : SchemaObject)
  | drop (object : SchemaObject)
  | alter (target : ObjectId) (changes : List AlterChange)
  | rename (source target : ObjectId)
deriving DecidableEq, Repr

namespace Operation

/-- Whether the operation can lose data or break references by name. -/
def isDestructive : Operation → Bool
  | drop _ | rename _ _ => true
  | alter _ changes => changes.any AlterChange.isDestructive
  | create _ => false

/-- The object that the operation applies to. -/
def target : Operation → ObjectId
  | create object | drop object => object.id
  | alter target _ => target
  | rename source _ => source

/-- The operation in words. -/
def text : Operation → String
  | create object => "Create " ++ object.id.text
  | drop object => "Drop " ++ object.id.text
  | alter target changes =>
    "Alter " ++ target.text ++ ": " ++ Text.join "; " (changes.map AlterChange.text)
  | rename source target => "Rename " ++ source.text ++ " to " ++ target.name

end Operation

/-- Two objects or columns that may be one under a new name. -/
structure RenameCandidate where
  kind : ObjectKind
  /-- The table, for columns. -/
  table : Option String
  source : String
  target : String
  /-- How similar the names are, from zero to one. -/
  similarity : Number.Binary64
deriving DecidableEq, Repr

/-- The candidate in words. -/
def RenameCandidate.text (candidate : RenameCandidate) : String :=
  let score := " (similarity " ++ candidate.similarity.fixedText 2 ++ ")"
  let subject :=
    match candidate.table with
    | some table => "column " ++ table ++ "." ++ candidate.source
    | none => candidate.kind.text ++ " " ++ candidate.source
  subject ++ " -> " ++ candidate.target ++ score

/-- The operations from one schema to another in an order in which they can run, and the renames
that may hide behind them. -/
structure ChangeSet where
  operations : List Operation
  candidates : List RenameCandidate
deriving DecidableEq, Repr

namespace ChangeSet

/-- Whether there is nothing to do. -/
def isEmpty (changes : ChangeSet) : Bool :=
  changes.operations.isEmpty

/-- The operations that can lose data. -/
def destructive (changes : ChangeSet) : List Operation :=
  changes.operations.filter Operation.isDestructive

/-- Whether an operation can lose data. -/
def isDestructive (changes : ChangeSet) : Bool :=
  changes.operations.any Operation.isDestructive

end ChangeSet

end SchemaPlan
