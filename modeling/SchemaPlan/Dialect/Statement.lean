import SchemaPlan.Change.Operation
import SchemaPlan.Dialect.Spelling

/-!
# Statements

The SQL of every operation.  Postgres has a statement for each of them but the renaming of an
extension.  SQLite has no extensions, enum types, functions and comments, and alters tables only
by adding, dropping and renaming columns; all else is a missing feature.
-/

set_option autoImplicit false

namespace SchemaPlan

open Text (quoteIdentifier quoteLiteral quoteList join)

/-! ## Parts of statements -/

/-- The clause of a foreign key. -/
def ForeignKey.clause (key : ForeignKey) : String :=
  "FOREIGN KEY (" ++ quoteList key.columns ++ ") REFERENCES " ++
    quoteIdentifier key.referencesTable ++ " (" ++ quoteList key.referencesColumns ++ ")" ++
    (if key.onUpdate = .noAction then "" else " ON UPDATE " ++ key.onUpdate.sql) ++
    (if key.onDelete = .noAction then "" else " ON DELETE " ++ key.onDelete.sql) ++
    (if key.deferrable then
      " DEFERRABLE" ++ if key.initiallyDeferred then " INITIALLY DEFERRED" else ""
    else "")

/-- The demand of a constraint. -/
def ConstraintKind.clause : ConstraintKind → String
  | primaryKey columns => "PRIMARY KEY (" ++ quoteList columns ++ ")"
  | unique columns => "UNIQUE (" ++ quoteList columns ++ ")"
  | check expression => "CHECK (" ++ expression ++ ")"
  | foreignKey key => key.clause

/-- A constraint with its name, if it has one. -/
def Constraint.clause (constraint : Constraint) : String :=
  (if constraint.name = "" then ""
    else "CONSTRAINT " ++ quoteIdentifier constraint.name ++ " ") ++ constraint.kind.clause

/-- A comment as a literal. -/
def commentText (comment : Option String) : String :=
  (comment.map quoteLiteral).getD "NULL"

/-- The first statement words of a change of a table. -/
def alterTable (table : String) : String :=
  "ALTER TABLE " ++ quoteIdentifier table

/-! ## Dollar quotes -/

/-- The tag with a number; the first has none. -/
def dollarTag : Nat → String
  | 0 => "$body$"
  | n + 1 => "$body" ++ toString (n + 1) ++ "$"

/-- The first tag from a number on, within `fuel` steps, that does not occur in a text. -/
def freeTagFrom (body : List Char) : Nat → Nat → String
  | 0, n => dollarTag n
  | fuel + 1, n =>
    if Text.occursIn (dollarTag n).toList body then freeTagFrom body fuel (n + 1) else dollarTag n

/-- The first tag that does not occur in a text.  Each tag that occurs takes a place of its own,
so one of as many tags as there are characters is free. -/
def freeTag (body : String) : String :=
  freeTagFrom body.toList body.length 0

/-! ## Statements of Postgres -/

namespace Postgres

/-- Creates or replaces a function. -/
def createFunction (function : Function) : String :=
  let tag := freeTag function.body
  "CREATE OR REPLACE FUNCTION " ++ quoteIdentifier function.name ++ "(" ++ function.arguments ++
    ")\n  RETURNS " ++ function.returns ++ "\n  LANGUAGE " ++ function.language ++ "\n  " ++
    function.volatility.sql ++ "\n  PARALLEL " ++ function.parallel.sql ++ "\nAS " ++ tag ++
    "\n" ++ Text.trimmed function.body ++ "\n" ++ tag

/-- Drops a function. -/
def dropFunction (function : Function) : String :=
  "DROP FUNCTION " ++ quoteIdentifier function.name ++ "(" ++ function.identityArguments ++ ")"

/-- Creates an enum type. -/
def createEnum (type : EnumType) : String :=
  "CREATE TYPE " ++ quoteIdentifier type.name ++ " AS ENUM (" ++
    join ", " (type.labels.map quoteLiteral) ++ ")"

/-- Adds a label to an enum type. -/
def addEnumLabel (type label : String) (position : LabelPosition) : String :=
  "ALTER TYPE " ++ quoteIdentifier type ++ " ADD VALUE " ++ quoteLiteral label ++
    match position with
    | .before other => " BEFORE " ++ quoteLiteral other
    | .after other => " AFTER " ++ quoteLiteral other
    | .last => ""

/-- The names under which a trigger sees the rows before and after the statement. -/
def transitionTables (trigger : Trigger) : String :=
  if trigger.oldTable.isNone && trigger.newTable.isNone then ""
  else
    "\n  REFERENCING" ++
      ((trigger.oldTable.map fun name => " OLD TABLE AS " ++ quoteIdentifier name).getD "") ++
      ((trigger.newTable.map fun name => " NEW TABLE AS " ++ quoteIdentifier name).getD "")

/-- Creates a trigger. -/
def createTrigger (trigger : Trigger) : String :=
  "CREATE TRIGGER " ++ quoteIdentifier trigger.name ++ "\n  " ++ trigger.timing.sql ++ " " ++
    join " OR " (trigger.events.map TriggerEvent.sql) ++ " ON " ++
    quoteIdentifier trigger.table ++ transitionTables trigger ++
    (match trigger.scope with
      | .row => "\n  FOR EACH ROW"
      | .statement => "\n  FOR EACH STATEMENT") ++
    ((trigger.condition.map fun condition => "\n  WHEN (" ++ condition ++ ")").getD "") ++
    "\n  EXECUTE FUNCTION " ++ quoteIdentifier trigger.function ++ "()"

/-- Changes a column of a table. -/
def alterColumn (table column action : String) : String :=
  alterTable table ++ " ALTER COLUMN " ++ quoteIdentifier column ++ " " ++ action

/-- Changes the type of a column. -/
def alterColumnType (table column : String) (type : DataType) : String :=
  alterColumn table column ("TYPE " ++ type.postgresText ++ " USING " ++ quoteIdentifier column ++
    "::" ++ type.postgresText)

/-- Sets or clears the comment of a table. -/
def commentOnTable (table : String) (comment : Option String) : String :=
  "COMMENT ON TABLE " ++ quoteIdentifier table ++ " IS " ++ commentText comment

/-- Sets or clears the comment of a column. -/
def commentOnColumn (table column : String) (comment : Option String) : String :=
  "COMMENT ON COLUMN " ++ quoteIdentifier table ++ "." ++ quoteIdentifier column ++ " IS " ++
    commentText comment

end Postgres

/-! ## Statements of a dialect -/

namespace Dialect

/-- A statement that only Postgres has. -/
def postgresOnly (dialect : Dialect) (feature : Feature) (statement : String) :
    Except Feature String :=
  match dialect with
  | postgres => .ok statement
  | sqlite => .error feature

/-- The definition of a column. -/
def columnDefinition (dialect : Dialect) (column : Column) : Except Feature String := do
  let type ← dialect.typeText column.type
  pure (quoteIdentifier column.name ++ " " ++ type ++
    (if column.nullable then "" else " NOT NULL") ++
    ((column.default.map fun value => " DEFAULT " ++ dialect.defaultText value).getD ""))

/-- Sets or clears the comment of a table. -/
def commentOnTable (dialect : Dialect) (table : String) (comment : Option String) :
    Except Feature String :=
  dialect.postgresOnly (.tableComment table) (Postgres.commentOnTable table comment)

/-- Sets or clears the comment of a column. -/
def commentOnColumn (dialect : Dialect) (table column : String) (comment : Option String) :
    Except Feature String :=
  dialect.postgresOnly (.columnComment table column) (Postgres.commentOnColumn table column comment)

/-- The comments of the columns that have one. -/
def columnComments (dialect : Dialect) (table : Table) : Except Feature (List String) :=
  (table.columns.filter fun column => column.comment.isSome).mapM fun column =>
    dialect.commentOnColumn table.name column.name column.comment

/-- Creates a table and sets its comments. -/
def createTable (dialect : Dialect) (table : Table) : Except Feature (List String) := do
  let columns ← table.columns.mapM dialect.columnDefinition
  let parts := columns ++ table.constraints.map Constraint.clause
  let statement := "CREATE TABLE " ++ quoteIdentifier table.name ++ " (\n" ++
    join ",\n" (parts.map fun part => "    " ++ part) ++ "\n)"
  let comment ← table.comment.toList.mapM fun comment =>
    dialect.commentOnTable table.name (some comment)
  let comments ← dialect.columnComments table
  pure (statement :: (comment ++ comments))

/-- Adds a constraint to a table. -/
def addConstraint (dialect : Dialect) (table : String) (constraint : Constraint) :
    Except Feature String :=
  dialect.postgresOnly (.addedConstraint constraint.kind.label constraint.name)
    (alterTable table ++ " ADD " ++ constraint.clause)

/-- Drops a constraint of a table. -/
def dropConstraint (dialect : Dialect) (table : String) (constraint : Constraint) :
    Except Feature String :=
  dialect.postgresOnly (.droppedConstraint constraint.kind.label constraint.name)
    (alterTable table ++ " DROP CONSTRAINT " ++ quoteIdentifier constraint.name)

/-- The method of an index that is no search tree. -/
def indexMethodClause (dialect : Dialect) (method : IndexMethod) : Except Feature String :=
  if method = .btree then .ok ""
  else dialect.postgresOnly (.indexMethod method.sql) (" USING " ++ method.sql)

/-- Creates an index. -/
def createIndex (dialect : Dialect) (index : Index) : Except Feature String := do
  let method ← dialect.indexMethodClause index.method
  pure ("CREATE " ++ (if index.unique then "UNIQUE " else "") ++ "INDEX " ++
    quoteIdentifier index.name ++ " ON " ++ quoteIdentifier index.table ++ method ++
    " (" ++ index.expression.getD (quoteList index.columns) ++ ")" ++
    ((index.predicate.map fun predicate => " WHERE " ++ predicate).getD ""))

/-- Creates an object. -/
def create (dialect : Dialect) : SchemaObject → Except Feature (List String)
  | .extension extension =>
    (dialect.postgresOnly (.extension extension.name)
      ("CREATE EXTENSION IF NOT EXISTS " ++ quoteIdentifier extension.name)).map fun s => [s]
  | .enum type =>
    (dialect.postgresOnly (.enumType type.name) (Postgres.createEnum type)).map fun s => [s]
  | .function function =>
    (dialect.postgresOnly (.function function.name)
      (Postgres.createFunction function)).map fun s => [s]
  | .table table => dialect.createTable table
  | .constraint value => (dialect.addConstraint value.table value.constraint).map fun s => [s]
  | .index index => (dialect.createIndex index).map fun s => [s]
  | .trigger trigger =>
    (dialect.postgresOnly (.functionTrigger trigger.name)
      (Postgres.createTrigger trigger)).map fun s => [s]

/-- Drops a trigger; in SQLite triggers have names of their own in the schema. -/
def dropTrigger (dialect : Dialect) (trigger : Trigger) : String :=
  "DROP TRIGGER " ++ quoteIdentifier trigger.name ++
    match dialect with
    | postgres => " ON " ++ quoteIdentifier trigger.table
    | sqlite => ""

/-- Drops an object. -/
def drop (dialect : Dialect) : SchemaObject → Except Feature String
  | .extension extension =>
    dialect.postgresOnly (.extension extension.name)
      ("DROP EXTENSION " ++ quoteIdentifier extension.name)
  | .enum type =>
    dialect.postgresOnly (.enumType type.name) ("DROP TYPE " ++ quoteIdentifier type.name)
  | .function function =>
    dialect.postgresOnly (.function function.name) (Postgres.dropFunction function)
  | .table table => .ok ("DROP TABLE " ++ quoteIdentifier table.name)
  | .constraint value => dialect.dropConstraint value.table value.constraint
  | .index index => .ok ("DROP INDEX " ++ quoteIdentifier index.name)
  | .trigger trigger => .ok (dialect.dropTrigger trigger)

/-- Adds a column and sets its comment. -/
def addColumn (dialect : Dialect) (table : String) (column : Column) :
    Except Feature (List String) := do
  let definition ← dialect.columnDefinition column
  let comment ← column.comment.toList.mapM fun comment =>
    dialect.commentOnColumn table column.name (some comment)
  pure ((alterTable table ++ " ADD COLUMN " ++ definition) :: comment)

/-- A change of a column that only Postgres has. -/
def alterColumn (dialect : Dialect) (feature : String → String → Feature)
    (table column action : String) : Except Feature String :=
  dialect.postgresOnly (feature table column) (Postgres.alterColumn table column action)

/-- A single change of an object. -/
def alterOnce (dialect : Dialect) (target : String) : AlterChange → Except Feature (List String)
  | .addColumn column => dialect.addColumn target column
  | .dropColumn column =>
    .ok [alterTable target ++ " DROP COLUMN " ++ quoteIdentifier column.name]
  | .renameColumn source new =>
    .ok [alterTable target ++ " RENAME COLUMN " ++ quoteIdentifier source ++ " TO " ++
      quoteIdentifier new]
  | .alterColumnType column _ type =>
    (dialect.postgresOnly (.typeChange target column)
      (Postgres.alterColumnType target column type)).map fun s => [s]
  | .setNullable column nullable =>
    (dialect.alterColumn .nullabilityChange target column
      (if nullable then "DROP NOT NULL" else "SET NOT NULL")).map fun s => [s]
  | .setDefault column default =>
    (dialect.alterColumn .defaultChange target column
      ((default.map fun value => "SET DEFAULT " ++ dialect.defaultText value).getD
        "DROP DEFAULT")).map fun s => [s]
  | .setColumnComment column comment =>
    (dialect.commentOnColumn target column comment).map fun s => [s]
  | .addConstraint constraint => (dialect.addConstraint target constraint).map fun s => [s]
  | .dropConstraint constraint => (dialect.dropConstraint target constraint).map fun s => [s]
  | .setComment comment => (dialect.commentOnTable target comment).map fun s => [s]
  | .addEnumLabel label position =>
    (dialect.postgresOnly (.enumType target)
      (Postgres.addEnumLabel target label position)).map fun s => [s]
  | .replaceFunction function =>
    (dialect.postgresOnly (.function function.name)
      (Postgres.createFunction function)).map fun s => [s]

/-- The statement that renames an object, but for its end. -/
def renameHead (source : ObjectId) : Except Feature String :=
  match source.kind, source.tableScope? with
  | .table, _ => .ok (alterTable source.name ++ " RENAME")
  | .index, _ => .ok ("ALTER INDEX " ++ quoteIdentifier source.name ++ " RENAME")
  | .enum, _ => .ok ("ALTER TYPE " ++ quoteIdentifier source.name ++ " RENAME")
  | .function, _ => .ok ("ALTER FUNCTION " ++ quoteIdentifier source.name ++ " RENAME")
  | .constraint, some (table, name) =>
    .ok (alterTable table ++ " RENAME CONSTRAINT " ++ quoteIdentifier name)
  | .trigger, some (table, name) =>
    .ok ("ALTER TRIGGER " ++ quoteIdentifier name ++ " ON " ++ quoteIdentifier table ++ " RENAME")
  | _, _ => .error (.renamed source)

/-- Renames an object; SQLite renames tables only. -/
def rename (dialect : Dialect) (source target : ObjectId) : Except Feature String :=
  if dialect = .sqlite ∧ source.kind ≠ .table then .error (.renamed source)
  else
    let name := if dialect = .sqlite then target.name else target.localName
    (renameHead source).map fun head => head ++ " TO " ++ quoteIdentifier name

/-- The statements of an operation. -/
def statements (dialect : Dialect) (operation : Operation) : Except SchemaError (List String) :=
  let rendered : Except Feature (List String) :=
    match operation with
    | .create object => dialect.create object
    | .drop object => (dialect.drop object).map fun s => [s]
    | .alter target changes => (changes.mapM (dialect.alterOnce target.name)).map List.flatten
    | .rename source target => (dialect.rename source target).map fun s => [s]
  rendered.mapError (.unsupportedFeature dialect)

end Dialect

end SchemaPlan
