import SchemaPlan.Dialect.Feature
import SchemaPlan.Schema.DataType

/-!
# Schema errors

Everything that can be wrong with a schema, with the change from one schema to another, or with
a script in some dialect.  Every error is a cause; `SchemaError.message` puts it into words and
`SchemaError.kind` names its class.
-/

set_option autoImplicit false

namespace SchemaPlan

/-- Something that has a name in a schema. -/
inductive Entity where
  | object (id : ObjectId)
  | column (table name : String)
  | enumLabel (type label : String)
deriving DecidableEq, Repr

namespace Entity

/-- What sort of thing it is. -/
def kind : Entity → String
  | object id => id.kind.text
  | column _ _ => "column"
  | enumLabel _ _ => "enum label"

/-- Its qualified name. -/
def name : Entity → String
  | object id => id.name
  | column table name => table ++ "." ++ name
  | enumLabel type label => type ++ "." ++ label

end Entity

/-- What refers to something that may be missing. -/
inductive Referrer where
  | object (id : ObjectId)
  | removal
  | alteration
  | renameTo (target : ObjectId)
  | columnRename (column : String)
  | columnRenameTo (table column : String)
  /-- A hint of the user, in its own notation. -/
  | renameHint (text : String)
deriving DecidableEq, Repr

/-- The referrer in words. -/
def Referrer.text : Referrer → String
  | object id => id.text
  | removal => "drop"
  | alteration => "alter"
  | renameTo target => "rename to " ++ target.text
  | columnRename column => "rename of column " ++ column
  | columnRenameTo table column => "rename to " ++ table ++ "." ++ column
  | renameHint text => "rename hint " ++ text

/-- Why the rows of a catalog make no schema. -/
inductive CatalogFault where
  | unknownTable (kind name table : String)
  | invalidType (table column : String) (cause : InvalidDataType)
  | unknownAction (constraint code : String)
  | missingReference (constraint : String)
  | unsupportedConstraint (constraint code : String)
  | unknownVolatility (function : String)
  | unknownParallelMode (function : String)
deriving DecidableEq, Repr

/-- The fault in words. -/
def CatalogFault.text : CatalogFault → String
  | unknownTable kind name table =>
    kind ++ " '" ++ name ++ "' belongs to unknown table '" ++ table ++ "'"
  | invalidType table column cause => table ++ "." ++ column ++ ": " ++ cause.message
  | unknownAction constraint code =>
    "constraint '" ++ constraint ++ "' has unknown action '" ++ code ++ "'"
  | missingReference constraint => "foreign key '" ++ constraint ++ "' has no referenced table"
  | unsupportedConstraint constraint code =>
    "constraint '" ++ constraint ++ "' has unsupported type '" ++ code ++ "'"
  | unknownVolatility function => "function '" ++ function ++ "' has unknown volatility"
  | unknownParallelMode function => "function '" ++ function ++ "' has unknown parallel mode"

/-- Why an object can not be changed as asked. -/
inductive ChangeObstacle where
  /-- A table depends on something that has to be created again. -/
  | recreatedDependency (cause : ObjectId)
  | lostLabels
  | lossyType (column : String) (source target : DataType)
  | otherTable
  | malformedName
  | extensionRename
deriving DecidableEq, Repr

/-- The obstacle in words. -/
def ChangeObstacle.text : ChangeObstacle → String
  | recreatedDependency cause => "depends on " ++ cause.text ++ ", which must be recreated"
  | lostLabels => "enum labels can only be added, not removed or reordered"
  | lossyType column source target =>
    "column " ++ column ++ " changes type from " ++ source.toText ++ " to " ++ target.toText ++
      ", which may lose data"
  | otherTable => "cannot move to another table"
  | malformedName => "malformed qualified name"
  | extensionRename => "extensions cannot be renamed"

/-- What is wrong with a schema, a change or a script. -/
inductive SchemaError where
  | duplicate (entity : Entity)
  | unknown (referrer : Referrer) (entity : Entity)
  /-- No order exists; the texts of the members of a cycle, the first one repeated at the end. -/
  | cyclicDependency (cycle : List String)
  | catalog (fault : CatalogFault)
  /-- The schema that a catalog holds is no valid schema. -/
  | unregistrable (cause : SchemaError)
  | unsupportedChange (id : ObjectId) (obstacle : ChangeObstacle)
  | unsupportedFeature (dialect : Dialect) (feature : Feature)
deriving DecidableEq, Repr

namespace SchemaError

/-- The class of an error. -/
def kind : SchemaError → String
  | duplicate _ => "DuplicateNameError"
  | unknown _ _ => "UnknownReferenceError"
  | cyclicDependency _ => "CyclicDependencyError"
  | catalog _ | unregistrable _ => "IntrospectionError"
  | unsupportedChange _ _ => "UnsupportedChangeError"
  | unsupportedFeature _ _ => "DialectError"

/-- The error in words. -/
def message : SchemaError → String
  | duplicate entity => "duplicate " ++ entity.kind ++ " '" ++ entity.name ++ "'"
  | unknown referrer entity =>
    referrer.text ++ " references unknown " ++ entity.kind ++ " '" ++ entity.name ++ "'"
  | cyclicDependency cycle => "dependency cycle detected: " ++ Text.join " -> " cycle
  | catalog fault => "introspection failed: " ++ fault.text
  | unregistrable cause => "introspection failed: " ++ cause.message
  | unsupportedChange id obstacle =>
    "unsupported change to " ++ id.text ++ ": " ++ obstacle.text
  | unsupportedFeature dialect feature =>
    dialect.name ++ " does not support " ++ feature.text

/-- Refers from an object to something that is missing. -/
def dangling (source : ObjectId) (entity : Entity) : SchemaError :=
  unknown (.object source) entity

end SchemaError

end SchemaPlan
