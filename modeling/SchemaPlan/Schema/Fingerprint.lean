import SchemaPlan.Schema.Canonical
import SchemaPlan.Text.Term

/-!
# Fingerprints

The fingerprint of an object is the text of its canonical form without the names that a rename
changes.  Every structure is written with the names of its fields, every choice with the name of what
is chosen.

* `SchemaObject.fingerprint?` is the fingerprint; extensions have none.
-/

set_option autoImplicit false

namespace SchemaPlan

open Text (Term)

/-- The kind as a term. -/
def ObjectKind.term : ObjectKind → Term
  | extension => .word "Extension"
  | enum => .word "Enum"
  | function => .word "Function"
  | table => .word "Table"
  | constraint => .word "Constraint"
  | index => .word "Index"
  | trigger => .word "Trigger"

/-- The identity as a term. -/
def ObjectId.term (id : ObjectId) : Term :=
  .record "ObjectId" [("kind", id.kind.term), ("name", .quoted id.name)]

/-- The type as a term. -/
def DataType.term : DataType → Term
  | boolean => .word "Boolean"
  | smallInt => .word "SmallInt"
  | integer => .word "Integer"
  | bigInt => .word "BigInt"
  | real => .word "Real"
  | doublePrecision => .word "DoublePrecision"
  | numeric precision scale =>
    .record "Numeric" [("precision", .option .nat precision), ("scale", .option .nat scale)]
  | text => .word "Text"
  | varchar length => .call "Varchar" [.option .nat length]
  | char length => .call "Char" [.option .nat length]
  | uuid => .word "Uuid"
  | date => .word "Date"
  | time => .word "Time"
  | timeTz => .word "TimeTz"
  | timestamp => .word "Timestamp"
  | timestampTz => .word "TimestampTz"
  | interval => .word "Interval"
  | bytea => .word "Bytea"
  | json => .word "Json"
  | jsonb => .word "Jsonb"
  | inet => .word "Inet"
  | enum name => .call "Enum" [.quoted name]
  | array element => .call "Array" [element.term]
  | custom name => .call "Custom" [.quoted name]

/-- A canonical column as a term; its default is an expression if it has one. -/
def Column.term (column : Column) : Term :=
  .record "Column"
    [("name", .quoted column.name),
      ("data_type", column.type.term),
      ("nullable", .bool column.nullable),
      ("default", .option (fun sql => .call "Expression" [.quoted sql])
        (column.default.bind DefaultValue.expression?)),
      ("comment", .option .quoted column.comment)]

/-- The action as a term. -/
def ForeignKeyAction.term : ForeignKeyAction → Term
  | noAction => .word "NoAction"
  | restrict => .word "Restrict"
  | cascade => .word "Cascade"
  | setNull => .word "SetNull"
  | setDefault => .word "SetDefault"

/-- The reference as a term. -/
def ForeignKey.term (key : ForeignKey) : Term :=
  .record "ForeignKeyRef"
    [("columns", .list .quoted key.columns),
      ("references_table", .quoted key.referencesTable),
      ("references_columns", .list .quoted key.referencesColumns),
      ("on_delete", key.onDelete.term),
      ("on_update", key.onUpdate.term),
      ("deferrable", .bool key.deferrable),
      ("initially_deferred", .bool key.initiallyDeferred)]

/-- The demand as a term. -/
def ConstraintKind.term : ConstraintKind → Term
  | primaryKey columns => .record "PrimaryKey" [("columns", .list .quoted columns)]
  | unique columns => .record "Unique" [("columns", .list .quoted columns)]
  | check expression => .record "Check" [("expression", .quoted expression)]
  | foreignKey key => .call "ForeignKey" [key.term]

/-- The constraint as a term. -/
def Constraint.term (constraint : Constraint) : Term :=
  .record "Constraint" [("name", .quoted constraint.name), ("kind", constraint.kind.term)]

/-- The constraint and its table as a term. -/
def TableConstraint.term (constraint : TableConstraint) : Term :=
  .record "TableConstraint"
    [("table", .quoted constraint.table), ("constraint", constraint.constraint.term)]

/-- The method as a term. -/
def IndexMethod.term : IndexMethod → Term
  | btree => .word "Btree"
  | hash => .word "Hash"
  | gist => .word "Gist"
  | gin => .word "Gin"
  | brin => .word "Brin"
  | spgist => .word "Spgist"
  | custom name => .call "Custom" [.quoted name]

/-- The index as a term. -/
def Index.term (index : Index) : Term :=
  .record "Index"
    [("name", .quoted index.name),
      ("table", .quoted index.table),
      ("columns", .list .quoted index.columns),
      ("expression", .option .quoted index.expression),
      ("method", index.method.term),
      ("unique", .bool index.unique),
      ("predicate", .option .quoted index.predicate)]

/-- The timing as a term. -/
def TriggerTiming.term : TriggerTiming → Term
  | before => .word "Before"
  | after => .word "After"
  | insteadOf => .word "InsteadOf"

/-- The event as a term. -/
def TriggerEvent.term : TriggerEvent → Term
  | insert => .word "Insert"
  | update => .word "Update"
  | delete => .word "Delete"
  | truncate => .word "Truncate"

/-- The scope as a term. -/
def TriggerScope.term : TriggerScope → Term
  | row => .word "Row"
  | statement => .word "Statement"

/-- The trigger as a term. -/
def Trigger.term (trigger : Trigger) : Term :=
  .record "Trigger"
    [("name", .quoted trigger.name),
      ("table", .quoted trigger.table),
      ("function", .quoted trigger.function),
      ("timing", trigger.timing.term),
      ("events", .list TriggerEvent.term trigger.events),
      ("scope", trigger.scope.term),
      ("old_table", .option .quoted trigger.oldTable),
      ("new_table", .option .quoted trigger.newTable),
      ("when", .option .quoted trigger.condition)]

/-- The promise as a term. -/
def Volatility.term : Volatility → Term
  | immutable => .word "Immutable"
  | stable => .word "Stable"
  | volatile => .word "Volatile"

/-- The safety as a term. -/
def ParallelSafety.term : ParallelSafety → Term
  | safe => .word "Safe"
  | restricted => .word "Restricted"
  | notSafe => .word "Unsafe"

/-- The function as a term. -/
def Function.term (function : Function) : Term :=
  .record "Function"
    [("name", .quoted function.name),
      ("arguments", .quoted function.arguments),
      ("returns", .quoted function.returns),
      ("language", .quoted function.language),
      ("body", .quoted function.body),
      ("volatility", function.volatility.term),
      ("parallel", function.parallel.term),
      ("depends_on", .list ObjectId.term function.dependsOn)]

/-- The table as a term. -/
def Table.term (table : Table) : Term :=
  .record "Table"
    [("name", .quoted table.name),
      ("columns", .list Column.term table.columns),
      ("constraints", .list Constraint.term table.constraints),
      ("indexes", .list Index.term table.indexes),
      ("triggers", .list Trigger.term table.triggers),
      ("comment", .option .quoted table.comment)]

/-- The extension as a term. -/
def Extension.term (extension : Extension) : Term :=
  .record "Extension" [("name", .quoted extension.name)]

/-- The enum as a term. -/
def EnumType.term (enum : EnumType) : Term :=
  .record "EnumType" [("name", .quoted enum.name), ("labels", .list .quoted enum.labels)]

namespace SchemaObject

/-- The object as a term. -/
def term : SchemaObject → Term
  | extension value => .call "Extension" [value.term]
  | enum value => .call "Enum" [value.term]
  | function value => .call "Function" [value.term]
  | table value => .call "Table" [value.term]
  | constraint value => .call "Constraint" [value.term]
  | index value => .call "Index" [value.term]
  | trigger value => .call "Trigger" [value.term]

/-- The text of the canonical form without names; extensions have none. -/
def fingerprint? (object : SchemaObject) : Option String :=
  match object with
  | .extension _ => none
  | _ => some object.canonical.unnamed.term.text

end SchemaObject

end SchemaPlan
