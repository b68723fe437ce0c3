import SchemaPlan.Number.Shortest
import SchemaPlan.Schema.DataType

/-!
# Columns

A column has a type and maybe a default, which is a literal or an SQL expression.
-/

set_option autoImplicit false

namespace SchemaPlan

/-- The default of a column. -/
inductive DefaultValue where
  | null
  | boolean (value : Bool)
  | integer (value : Int)
  | float (value : Number.Binary64)
  | string (value : String)
  /-- SQL text that is taken as it is and may call functions. -/
  | expression (sql : String)
deriving DecidableEq, Repr

/-- The default as SQL. -/
def DefaultValue.sql : DefaultValue → String
  | null => "NULL"
  | boolean value => if value then "TRUE" else "FALSE"
  | integer value => toString value
  | float value => value.plainText
  | string value => Text.quoteLiteral value
  | expression sql => sql

/-- The text in which a function call may stand. -/
def DefaultValue.expression? : DefaultValue → Option String
  | expression sql => some sql
  | _ => none

/-- A column of a table. -/
structure Column where
  name : String
  type : DataType
  nullable : Bool := true
  default : Option DefaultValue := none
  comment : Option String := none
deriving DecidableEq, Repr

end SchemaPlan
