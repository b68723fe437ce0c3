import SchemaPlan.Schema.ObjectId

/-!
# Dialects and what they lack

The databases for which scripts are written, and the features that a dialect may not have.
-/

set_option autoImplicit false

namespace SchemaPlan

/-- A dialect of SQL. -/
inductive Dialect where
  | postgres
  | sqlite
deriving DecidableEq, Repr

/-- The name of a dialect. -/
def Dialect.name : Dialect → String
  | postgres => "postgresql"
  | sqlite => "sqlite"

/-- Something that a dialect can not express. -/
inductive Feature where
  | arrayTypes
  | customType (name : String)
  | renamed (id : ObjectId)
  | addedConstraint (label name : String)
  | droppedConstraint (label name : String)
  | indexMethod (name : String)
  | extension (name : String)
  | enumType (name : String)
  | function (name : String)
  | functionTrigger (name : String)
  | typeChange (table column : String)
  | nullabilityChange (table column : String)
  | defaultChange (table column : String)
  | tableComment (table : String)
  | columnComment (table column : String)
deriving DecidableEq, Repr

/-- The feature in words. -/
def Feature.text : Feature → String
  | arrayTypes => "array types"
  | customType name => "type " ++ name
  | renamed id => "renaming " ++ id.text
  | addedConstraint label name =>
    "adding " ++ label ++ " constraint " ++ name ++ " to an existing table"
  | droppedConstraint label name => "dropping " ++ label ++ " constraint " ++ name
  | indexMethod name => "index method " ++ name
  | extension name => "extension " ++ name
  | enumType name => "enum type " ++ name
  | function name => "function " ++ name
  | functionTrigger name => "function trigger " ++ name
  | typeChange table column => "changing the type of " ++ table ++ "." ++ column
  | nullabilityChange table column => "changing nullability of " ++ table ++ "." ++ column
  | defaultChange table column => "changing the default of " ++ table ++ "." ++ column
  | tableComment table => "comments on table " ++ table
  | columnComment table column => "comments on column " ++ table ++ "." ++ column

end SchemaPlan
