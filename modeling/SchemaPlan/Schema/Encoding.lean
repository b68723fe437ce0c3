import SchemaPlan.Json.Record
import SchemaPlan.Schema.Object

/-!
# Schema objects as JSON

The form in which declarations store the objects of a schema: for every type `ofJson?` reads it
and `toJson` writes it.  Fields are written in their order; those that are optional and have no
value are left out.

A constraint keeps its name and the fields of its kind in one object, told apart by `type`, so
it can not be written as an array.
-/

set_option autoImplicit false

namespace SchemaPlan

/-- The value that has a name in a list of named values. -/
def named? {α : Type} (table : List (String × α)) (name : String) : Option α :=
  (table.find? fun entry => entry.1 == name).map Prod.snd

/-! ## Identities -/

namespace ObjectId

/-- Reads an identity. -/
def ofJson? (value : Json) : Option ObjectId := do
  let record ← value.record? ["kind", "name"]
  let kind ← record.field? "kind" (Json.choice? ObjectKind.ofText?)
  let name ← record.field? "name" Json.text?
  pure ⟨kind, name⟩

/-- Writes an identity. -/
def toJson (id : ObjectId) : Json :=
  .object [("kind", .string id.kind.text), ("name", .string id.name)]

end ObjectId

/-! ## Columns -/

/-- Reads a column type from its text. -/
def DataType.ofJson? (value : Json) : Option DataType :=
  value.text?.bind fun text => (DataType.parse text).toOption

/-- A parameter of a type that may be missing. -/
def DataType.parameter (name : String) (value : Option Nat) : Json :=
  .object [(name, (value.map Json.ofNat).getD .null)]

/-- Writes the structure of a type: its name, or an object with its parameters. -/
def DataType.toTree : DataType → Json
  | boolean => .string "Boolean"
  | smallInt => .string "SmallInt"
  | integer => .string "Integer"
  | bigInt => .string "BigInt"
  | real => .string "Real"
  | doublePrecision => .string "DoublePrecision"
  | numeric p s =>
    .object [("numeric", .array ([p, s].map fun n => (n.map Json.ofNat).getD .null))]
  | text => .string "Text"
  | varchar n => parameter "varchar" n
  | char n => parameter "char" n
  | uuid => .string "Uuid"
  | date => .string "Date"
  | time => .string "Time"
  | timeTz => .string "TimeTz"
  | timestamp => .string "Timestamp"
  | timestampTz => .string "TimestampTz"
  | interval => .string "Interval"
  | bytea => .string "Bytea"
  | json => .string "Json"
  | jsonb => .string "Jsonb"
  | inet => .string "Inet"
  | enum name => .object [("enum", .string name)]
  | custom name => .object [("custom", .string name)]
  | array element => .object [("array", element.toTree)]

namespace DefaultValue

/-- Reads a default. -/
def ofJson? : Json → Option DefaultValue
  | .string "null" => some null
  | .object [(kind, value)] =>
    match kind with
    | "null" => match value with
      | .null => some null
      | _ => none
    | "boolean" => value.bool?.map boolean
    | "integer" => value.int64?.map integer
    | "float" => value.float?.map float
    | "string" => value.text?.map string
    | "expression" => value.text?.map expression
    | _ => none
  | _ => none

/-- Writes a default. -/
def toJson : DefaultValue → Json
  | null => .string "null"
  | boolean value => .object [("boolean", .bool value)]
  | integer value => .object [("integer", .number (.integer value))]
  | float value => .object [("float", .number (.float value))]
  | string value => .object [("string", .string value)]
  | expression sql => .object [("expression", .string sql)]

end DefaultValue

namespace Column

/-- Reads a column. -/
def ofJson? (value : Json) : Option Column := do
  let record ← value.record? ["name", "type", "nullable", "default", "comment"]
  let name ← record.field? "name" Json.text?
  let type ← record.field? "type" DataType.ofJson?
  let nullable ← record.fieldOr? "nullable" true Json.bool?
  let default ← record.fieldOr? "default" none (Json.nullable? DefaultValue.ofJson?)
  let comment ← record.fieldOr? "comment" none (Json.nullable? Json.text?)
  pure { name, type, nullable, default, comment }

/-- Writes a column. -/
def toJson (column : Column) : Json :=
  .object ([("name", .string column.name), ("type", .string column.type.toText),
      ("nullable", .bool column.nullable)] ++
    Json.memberOf? "default" (column.default.map DefaultValue.toJson) ++
    Json.memberOf? "comment" (column.comment.map Json.string))

end Column

/-! ## Constraints -/

namespace ForeignKeyAction

/-- The actions by the names under which they are stored. -/
def names : List (String × ForeignKeyAction) :=
  [("no_action", noAction), ("restrict", restrict), ("cascade", cascade), ("set_null", setNull),
    ("set_default", setDefault)]

/-- The stored name. -/
def storedName : ForeignKeyAction → String
  | noAction => "no_action"
  | restrict => "restrict"
  | cascade => "cascade"
  | setNull => "set_null"
  | setDefault => "set_default"

/-- Reads an action. -/
def ofJson? (value : Json) : Option ForeignKeyAction :=
  value.choice? (named? names)

/-- Reads an action inside a constraint, where an empty object may stand for missing content. -/
def ofInnerJson? : Json → Option ForeignKeyAction
  | .object [(name, .object [])] => named? names name
  | value => ofJson? value

end ForeignKeyAction

namespace ForeignKey

/-- The names of the fields. -/
def fields : List String :=
  ["columns", "references_table", "references_columns", "on_delete", "on_update", "deferrable",
    "initially_deferred"]

/-- Reads the fields of a foreign key with a reader of actions. -/
def ofRecord? (action : Json → Option ForeignKeyAction) (record : Record) :
    Option ForeignKey := do
  let columns ← record.field? "columns" Json.texts?
  let referencesTable ← record.field? "references_table" Json.text?
  let referencesColumns ← record.field? "references_columns" Json.texts?
  let onDelete ← record.fieldOr? "on_delete" .noAction action
  let onUpdate ← record.fieldOr? "on_update" .noAction action
  let deferrable ← record.fieldOr? "deferrable" false Json.bool?
  let initiallyDeferred ← record.fieldOr? "initially_deferred" false Json.bool?
  pure ⟨columns, referencesTable, referencesColumns, onDelete, onUpdate, deferrable,
    initiallyDeferred⟩

/-- Reads a foreign key that stands alone. -/
def ofJson? (value : Json) : Option ForeignKey :=
  (value.record? fields).bind (ofRecord? ForeignKeyAction.ofJson?)

/-- Reads a foreign key among the members of a constraint. -/
def ofMembers? (members : List (String × Json)) : Option ForeignKey :=
  ((Json.object members).record? fields).bind (ofRecord? ForeignKeyAction.ofInnerJson?)

/-- The fields of a foreign key. -/
def toMembers (key : ForeignKey) : List (String × Json) :=
  [("columns", Json.ofTexts key.columns), ("references_table", .string key.referencesTable),
    ("references_columns", Json.ofTexts key.referencesColumns),
    ("on_delete", .string key.onDelete.storedName), ("on_update", .string key.onUpdate.storedName),
    ("deferrable", .bool key.deferrable), ("initially_deferred", .bool key.initiallyDeferred)]

end ForeignKey

namespace ConstraintKind

/-- The stored names of the kinds; a kind is also known by its place among them. -/
def typeNames : List String :=
  ["primary_key", "unique", "check", "foreign_key"]

/-- The name of a kind that is given by name or place. -/
def typeName? : Json → Option String
  | .string name => if typeNames.contains name then some name else none
  | .number (.integer place) => if 0 ≤ place then typeNames[place.toNat]? else none
  | _ => none

/-- Reads the fields of a kind. -/
def ofMembers? (members : List (String × Json)) : Option ConstraintKind := do
  let type ← (Json.last? "type" members).bind typeName?
  let columns : Option (List String) :=
    ((Json.object members).record? ["columns"]).bind fun record =>
      record.field? "columns" Json.texts?
  match type with
  | "primary_key" => columns.map primaryKey
  | "unique" => columns.map unique
  | "check" =>
    let record ← (Json.object members).record? ["expression"]
    (record.field? "expression" Json.text?).map check
  | _ => (ForeignKey.ofMembers? members).map foreignKey

/-- The fields of a kind. -/
def toMembers : ConstraintKind → List (String × Json)
  | primaryKey columns => [("type", .string "primary_key"), ("columns", Json.ofTexts columns)]
  | unique columns => [("type", .string "unique"), ("columns", Json.ofTexts columns)]
  | check expression => [("type", .string "check"), ("expression", .string expression)]
  | foreignKey key => ("type", .string "foreign_key") :: key.toMembers

end ConstraintKind

namespace Constraint

/-- Reads a constraint.  No part of it may be unreadable, fields of other kinds included. -/
def ofJson? : Json → Option Constraint
  | .object members => do
    if Json.anyUnreadableMember members then none
    let record ← (Json.object members).record? ["name", "type"]
    let name ← record.fieldOr? "name" "" Json.text?
    let kind ← ConstraintKind.ofMembers? members
    pure { name, kind }
  | _ => none

/-- Writes a constraint. -/
def toJson (constraint : Constraint) : Json :=
  .object (("name", .string constraint.name) :: constraint.kind.toMembers)

end Constraint

namespace TableConstraint

/-- Reads a constraint with the name of its table. -/
def ofJson? (value : Json) : Option TableConstraint := do
  let record ← value.record? ["table", "constraint"]
  let table ← record.field? "table" Json.text?
  let constraint ← record.field? "constraint" Constraint.ofJson?
  pure { table, constraint }

/-- Writes a constraint with the name of its table. -/
def toJson (value : TableConstraint) : Json :=
  .object [("table", .string value.table), ("constraint", value.constraint.toJson)]

end TableConstraint

/-! ## Indexes -/

namespace IndexMethod

/-- The built-in methods by name. -/
def names : List (String × IndexMethod) :=
  [btree, hash, gist, gin, brin, spgist].map fun method => (method.sql, method)

/-- Reads an index method. -/
def ofJson? : Json → Option IndexMethod
  | .object [("custom", value)] => value.text?.map custom
  | value => value.choice? (named? names)

/-- Writes an index method. -/
def toJson : IndexMethod → Json
  | custom name => .object [("custom", .string name)]
  | method => .string method.sql

end IndexMethod

namespace Index

/-- Reads an index. -/
def ofJson? (value : Json) : Option Index := do
  let record ← value.record?
    ["name", "table", "columns", "expression", "method", "unique", "predicate"]
  let name ← record.fieldOr? "name" "" Json.text?
  let table ← record.fieldOr? "table" "" Json.text?
  let columns ← record.fieldOr? "columns" [] Json.texts?
  let expression ← record.fieldOr? "expression" none (Json.nullable? Json.text?)
  let method ← record.fieldOr? "method" .btree IndexMethod.ofJson?
  let unique ← record.fieldOr? "unique" false Json.bool?
  let predicate ← record.fieldOr? "predicate" none (Json.nullable? Json.text?)
  pure { name, table, columns, expression, method, unique, predicate }

/-- Writes an index. -/
def toJson (index : Index) : Json :=
  .object ([("name", .string index.name), ("table", .string index.table),
      ("columns", Json.ofTexts index.columns)] ++
    Json.memberOf? "expression" (index.expression.map Json.string) ++
    [("method", index.method.toJson), ("unique", .bool index.unique)] ++
    Json.memberOf? "predicate" (index.predicate.map Json.string))

end Index

/-! ## Triggers -/

namespace TriggerTiming

/-- The timings by the names under which they are stored. -/
def names : List (String × TriggerTiming) :=
  [("before", before), ("after", after), ("instead_of", insteadOf)]

/-- The stored name. -/
def storedName : TriggerTiming → String
  | before => "before"
  | after => "after"
  | insteadOf => "instead_of"

/-- Reads a timing. -/
def ofJson? (value : Json) : Option TriggerTiming :=
  value.choice? (named? names)

end TriggerTiming

namespace TriggerEvent

/-- The stored name. -/
def storedName : TriggerEvent → String
  | insert => "insert"
  | update => "update"
  | delete => "delete"
  | truncate => "truncate"

/-- The events by the names under which they are stored. -/
def names : List (String × TriggerEvent) :=
  all.map fun event => (event.storedName, event)

/-- Reads an event. -/
def ofJson? (value : Json) : Option TriggerEvent :=
  value.choice? (named? names)

end TriggerEvent

namespace TriggerScope

/-- The stored name. -/
def storedName : TriggerScope → String
  | row => "row"
  | statement => "statement"

/-- The scopes by the names under which they are stored. -/
def names : List (String × TriggerScope) :=
  [("row", row), ("statement", statement)]

/-- Reads a scope. -/
def ofJson? (value : Json) : Option TriggerScope :=
  value.choice? (named? names)

end TriggerScope

namespace Trigger

/-- Reads a trigger. -/
def ofJson? (value : Json) : Option Trigger := do
  let record ← value.record?
    ["name", "table", "function", "timing", "events", "scope", "old_table", "new_table", "when"]
  let name ← record.field? "name" Json.text?
  let table ← record.fieldOr? "table" "" Json.text?
  let function ← record.field? "function" Json.text?
  let timing ← record.fieldOr? "timing" .after TriggerTiming.ofJson?
  let events ← record.field? "events" (Json.list? TriggerEvent.ofJson?)
  let scope ← record.fieldOr? "scope" .statement TriggerScope.ofJson?
  let oldTable ← record.fieldOr? "old_table" none (Json.nullable? Json.text?)
  let newTable ← record.fieldOr? "new_table" none (Json.nullable? Json.text?)
  let condition ← record.fieldOr? "when" none (Json.nullable? Json.text?)
  pure { name, table, function, timing, events, scope, oldTable, newTable, condition }

/-- Writes a trigger. -/
def toJson (trigger : Trigger) : Json :=
  .object ([("name", .string trigger.name), ("table", .string trigger.table),
      ("function", .string trigger.function), ("timing", .string trigger.timing.storedName),
      ("events", .array (trigger.events.map fun event => .string event.storedName)),
      ("scope", .string trigger.scope.storedName)] ++
    Json.memberOf? "old_table" (trigger.oldTable.map Json.string) ++
    Json.memberOf? "new_table" (trigger.newTable.map Json.string) ++
    Json.memberOf? "when" (trigger.condition.map Json.string))

end Trigger

/-! ## Functions -/

namespace Volatility

/-- The stored name. -/
def storedName : Volatility → String
  | immutable => "immutable"
  | stable => "stable"
  | volatile => "volatile"

/-- Reads a promise about results. -/
def ofJson? (value : Json) : Option Volatility :=
  value.choice? (named? ([immutable, stable, volatile].map fun v => (v.storedName, v)))

end Volatility

namespace ParallelSafety

/-- The stored name. -/
def storedName : ParallelSafety → String
  | safe => "safe"
  | restricted => "restricted"
  | notSafe => "unsafe"

/-- Reads a parallel safety. -/
def ofJson? (value : Json) : Option ParallelSafety :=
  value.choice? (named? ([safe, restricted, notSafe].map fun p => (p.storedName, p)))

end ParallelSafety

namespace Function

/-- Reads a function. -/
def ofJson? (value : Json) : Option Function := do
  let record ← value.record?
    ["name", "arguments", "returns", "language", "body", "volatility", "parallel", "depends_on"]
  let name ← record.field? "name" Json.text?
  let arguments ← record.fieldOr? "arguments" "" Json.text?
  let returns ← record.field? "returns" Json.text?
  let language ← record.fieldOr? "language" "plpgsql" Json.text?
  let body ← record.field? "body" Json.text?
  let volatility ← record.fieldOr? "volatility" .volatile Volatility.ofJson?
  let parallel ← record.fieldOr? "parallel" .notSafe ParallelSafety.ofJson?
  let dependsOn ← record.fieldOr? "depends_on" [] (Json.list? ObjectId.ofJson?)
  pure { name, arguments, returns, language, body, volatility, parallel, dependsOn }

/-- Writes a function. -/
def toJson (function : Function) : Json :=
  .object ([("name", .string function.name), ("arguments", .string function.arguments),
      ("returns", .string function.returns), ("language", .string function.language),
      ("body", .string function.body), ("volatility", .string function.volatility.storedName),
      ("parallel", .string function.parallel.storedName)] ++
    (if function.dependsOn.isEmpty then []
      else [("depends_on", .array (function.dependsOn.map ObjectId.toJson))]))

end Function

/-! ## Extensions, enums and tables -/

namespace Extension

/-- Reads an extension. -/
def ofJson? (value : Json) : Option Extension := do
  let record ← value.record? ["name"]
  let name ← record.field? "name" Json.text?
  pure { name }

/-- Writes an extension. -/
def toJson (extension : Extension) : Json :=
  .object [("name", .string extension.name)]

end Extension

namespace EnumType

/-- Reads an enum type. -/
def ofJson? (value : Json) : Option EnumType := do
  let record ← value.record? ["name", "labels"]
  let name ← record.field? "name" Json.text?
  let labels ← record.field? "labels" Json.texts?
  pure { name, labels }

/-- Writes an enum type. -/
def toJson (type : EnumType) : Json :=
  .object [("name", .string type.name), ("labels", Json.ofTexts type.labels)]

end EnumType

namespace Table

/-- Reads a table. -/
def ofJson? (value : Json) : Option Table := do
  let record ← value.record? ["name", "columns", "constraints", "indexes", "triggers", "comment"]
  let name ← record.field? "name" Json.text?
  let columns ← record.field? "columns" (Json.list? Column.ofJson?)
  let constraints ← record.fieldOr? "constraints" [] (Json.list? Constraint.ofJson?)
  let indexes ← record.fieldOr? "indexes" [] (Json.list? Index.ofJson?)
  let triggers ← record.fieldOr? "triggers" [] (Json.list? Trigger.ofJson?)
  let comment ← record.fieldOr? "comment" none (Json.nullable? Json.text?)
  pure { name, columns, constraints, indexes, triggers, comment }

/-- Writes a table. -/
def toJson (table : Table) : Json :=
  .object ([("name", .string table.name), ("columns", .array (table.columns.map Column.toJson)),
      ("constraints", .array (table.constraints.map Constraint.toJson)),
      ("indexes", .array (table.indexes.map Index.toJson)),
      ("triggers", .array (table.triggers.map Trigger.toJson))] ++
    Json.memberOf? "comment" (table.comment.map Json.string))

end Table

/-! ## Objects -/

namespace SchemaObject

/-- Reads an object under the name of its kind. -/
def ofJson? : Json → Option SchemaObject
  | .object [(kind, value)] =>
    match kind with
    | "extension" => (Extension.ofJson? value).map extension
    | "enum" => (EnumType.ofJson? value).map enum
    | "function" => (Function.ofJson? value).map function
    | "table" => (Table.ofJson? value).map table
    | "constraint" => (TableConstraint.ofJson? value).map constraint
    | "index" => (Index.ofJson? value).map index
    | "trigger" => (Trigger.ofJson? value).map trigger
    | _ => none
  | _ => none

/-- Writes an object under the name of its kind. -/
def toJson (object : SchemaObject) : Json :=
  let value :=
    match object with
    | extension v => v.toJson
    | enum v => v.toJson
    | function v => v.toJson
    | table v => v.toJson
    | constraint v => v.toJson
    | index v => v.toJson
    | trigger v => v.toJson
  .object [(object.kind.text, value)]

end SchemaObject

end SchemaPlan
