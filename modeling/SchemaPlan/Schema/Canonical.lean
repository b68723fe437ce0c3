import SchemaPlan.Expression.Canonical
import SchemaPlan.Schema.IndexKeys
import SchemaPlan.Schema.Object

/-!
# Canonical objects

Two definitions of an object are equivalent when their canonical forms are equal.  The canonical
form folds expressions, types and lists that a database reports in words of its own; it is
compared and never written.  `SchemaObject.unnamed` also leaves out the names that a rename changes.
-/

set_option autoImplicit false

namespace SchemaPlan

/-- The canonical text of a default; none when the default is missing or null. -/
def DefaultValue.canonicalSql? (default : Option DefaultValue) : Option String :=
  (default.map fun value => Expression.canonical value.sql).filter (· != "null")

/-- A column with a canonical default. -/
def Column.canonical (column : Column) : Column :=
  { column with default := (DefaultValue.canonicalSql? column.default).map .expression }

/-- The demand of a constraint with a canonical expression. -/
def ConstraintKind.canonical : ConstraintKind → ConstraintKind
  | check expression => check (Expression.canonical expression)
  | kind => kind

/-- A constraint with a canonical expression. -/
def Constraint.canonical (constraint : Constraint) : Constraint :=
  { constraint with kind := constraint.kind.canonical }

/-- An index with canonical keys and predicate; an expression that is a list of columns becomes
one. -/
def Index.canonical (index : Index) : Index :=
  let keys :=
    match index.expression with
    | some expression => IndexKeys.read (Expression.canonical expression)
    | none => (index.columns, none)
  { index with
    columns := keys.1
    expression := keys.2
    predicate := index.predicate.map Expression.canonical }

/-- A trigger with its events in order and a canonical condition. -/
def Trigger.canonical (trigger : Trigger) : Trigger :=
  { trigger with
    events := TriggerEvent.normalize trigger.events
    condition := trigger.condition.map Expression.canonical }

namespace Function

/-- The canonical result type; any text that is no type stands for itself. -/
def canonicalReturns (function : Function) : String :=
  let text := Expression.canonical function.returns
  match DataType.parse text with
  | .ok type => type.toText
  | .error _ => text

/-- What can not be replaced in place: the arguments and the result type. -/
def signature (function : Function) : String × String :=
  (Expression.canonical function.arguments, function.canonicalReturns)

/-- A function with a canonical signature and body and without dependencies. -/
def canonical (function : Function) : Function :=
  { function with
    arguments := function.signature.1
    returns := function.signature.2
    language := String.ofList (function.language.toList.map Char.toLower)
    body := Expression.canonicalBody function.body
    dependsOn := [] }

end Function

/-- A table with all its parts in canonical form. -/
def Table.canonical (table : Table) : Table :=
  { table with
    columns := table.columns.map Column.canonical
    constraints := table.constraints.map Constraint.canonical
    indexes := table.indexes.map Index.canonical
    triggers := table.triggers.map Trigger.canonical }

namespace SchemaObject

/-- The canonical form of an object. -/
def canonical : SchemaObject → SchemaObject
  | .table t => .table t.canonical
  | .index i => .index i.canonical
  | .trigger t => .trigger t.canonical
  | .function f => .function f.canonical
  | object => object

/-- Whether two definitions have one canonical form. -/
def equivalent (a b : SchemaObject) : Bool :=
  a.canonical == b.canonical

/-- The object without the names that a rename changes. -/
def unnamed : SchemaObject → SchemaObject
  | .extension e => .extension e
  | .enum e => .enum { e with name := "" }
  | .function f => .function { f with name := "" }
  | .table t =>
    .table { t with
      name := ""
      constraints := t.constraints.map fun constraint => { constraint with name := "" } }
  | .constraint c => .constraint { c with constraint := { c.constraint with name := "" } }
  | .index i => .index { i with name := "" }
  | .trigger t => .trigger { t with name := "" }

end SchemaObject

end SchemaPlan
