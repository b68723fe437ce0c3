import SchemaPlan.Schema.Column
import SchemaPlan.Schema.Error

/-!
# Types and defaults in a dialect

Postgres has every type.  SQLite has five: enums and all types of text, time and documents are
stored as `TEXT`; there are no arrays and no custom types, and truth values are numbers.
-/

set_option autoImplicit false

namespace SchemaPlan

namespace DataType

/-- The type in Postgres.  A custom type keeps its modifiers. -/
def postgresText : DataType → String
  | boolean => "BOOLEAN"
  | smallInt => "SMALLINT"
  | integer => "INTEGER"
  | bigInt => "BIGINT"
  | real => "REAL"
  | doublePrecision => "DOUBLE PRECISION"
  | numeric (some p) (some s) => "NUMERIC(" ++ toString p ++ ", " ++ toString s ++ ")"
  | numeric (some p) none => "NUMERIC(" ++ toString p ++ ")"
  | numeric none _ => "NUMERIC"
  | text => "TEXT"
  | varchar length => withLength "VARCHAR" length
  | char length => withLength "CHAR" length
  | uuid => "UUID"
  | date => "DATE"
  | time => "TIME"
  | timeTz => "TIMETZ"
  | timestamp => "TIMESTAMP"
  | timestampTz => "TIMESTAMPTZ"
  | interval => "INTERVAL"
  | bytea => "BYTEA"
  | json => "JSON"
  | jsonb => "JSONB"
  | inet => "INET"
  | enum name => Text.quoteIdentifier name
  | custom name => name
  | array element => element.postgresText ++ "[]"

/-- The type in SQLite. -/
def sqliteText : DataType → Except Feature String
  | boolean | smallInt | integer | bigInt => .ok "INTEGER"
  | real | doublePrecision => .ok "REAL"
  | numeric _ _ => .ok "NUMERIC"
  | bytea => .ok "BLOB"
  | array _ => .error .arrayTypes
  | custom name => .error (.customType name)
  | text | varchar _ | char _ | uuid | date | time | timeTz | timestamp | timestampTz
  | interval | json | jsonb | inet | enum _ => .ok "TEXT"

end DataType

namespace Dialect

/-- The type in a dialect. -/
def typeText : Dialect → DataType → Except Feature String
  | postgres, type => .ok type.postgresText
  | sqlite, type => type.sqliteText

/-- The default in a dialect. -/
def defaultText : Dialect → DefaultValue → String
  | sqlite, .boolean value => if value then "1" else "0"
  | _, value => value.sql

end Dialect

end SchemaPlan
