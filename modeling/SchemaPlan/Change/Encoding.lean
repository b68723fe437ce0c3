import SchemaPlan.Change.Operation
import SchemaPlan.Graph.Registration
import SchemaPlan.Schema.Encoding

/-!
# Operations as JSON

Hand-written operations are objects with one member, which is named after what the operation or the
change does.  `ofJson?` reads them and `toJson` writes them.

A hand-written operation does not know which custom types are enums; `resolveEnums` tells it.
-/

set_option autoImplicit false

namespace SchemaPlan

/-- The only member of an object. -/
def Json.single? : Json → Option (String × Json)
  | .object [member] => some member
  | _ => none

/-- A member of an object; a missing one is null. -/
def Json.member (name : String) : Json → Json
  | .object members => (Json.last? name members).getD .null
  | _ => .null

/-- A member that is a text. -/
def Json.memberText? (name : String) (value : Json) : Option String :=
  (value.member name).text?

/-- An object with one member. -/
def Json.single (name : String) (value : Json) : Json :=
  .object [(name, value)]

namespace LabelPosition

/-- Reads a position. -/
def ofJson? : Json → Option LabelPosition
  | .string "end" => some .last
  | .object [("before", .string label)] => some (.before label)
  | .object [("after", .string label)] => some (.after label)
  | _ => none

/-- Writes a position. -/
def toJson : LabelPosition → Json
  | before label => .single "before" (.string label)
  | after label => .single "after" (.string label)
  | last => .string "end"

end LabelPosition

namespace AlterChange

/-- Reads a change. -/
def ofJson? (value : Json) : Option AlterChange := do
  let (kind, value) ← value.single?
  match kind with
  | "add_column" => (Column.ofJson? value).map addColumn
  | "drop_column" => (Column.ofJson? value).map dropColumn
  | "rename_column" =>
    pure (renameColumn (← value.memberText? "from") (← value.memberText? "to"))
  | "alter_column_type" =>
    pure (alterColumnType (← value.memberText? "column")
      (← DataType.ofJson? (value.member "from")) (← DataType.ofJson? (value.member "to")))
  | "set_nullable" =>
    pure (setNullable (← value.memberText? "column") (← (value.member "nullable").bool?))
  | "set_default" =>
    pure (setDefault (← value.memberText? "column")
      (← Json.nullable? DefaultValue.ofJson? (value.member "default")))
  | "set_column_comment" =>
    pure (setColumnComment (← value.memberText? "column")
      (← Json.nullable? Json.text? (value.member "comment")))
  | "add_constraint" => (Constraint.ofJson? value).map addConstraint
  | "drop_constraint" => (Constraint.ofJson? value).map dropConstraint
  | "set_comment" => (Json.nullable? Json.text? value).map setComment
  | "add_enum_label" =>
    pure (addEnumLabel (← value.memberText? "label")
      (← LabelPosition.ofJson? (value.member "position")))
  | "replace_function" => (Function.ofJson? value).map replaceFunction
  | _ => none

/-- Writes a change. -/
def toJson : AlterChange → Json
  | addColumn column => .single "add_column" column.toJson
  | dropColumn column => .single "drop_column" column.toJson
  | renameColumn source target =>
    .single "rename_column" (.object [("from", .string source), ("to", .string target)])
  | alterColumnType column source target =>
    .single "alter_column_type" (.object [("column", .string column),
      ("from", .string source.toText), ("to", .string target.toText)])
  | setNullable column nullable =>
    .single "set_nullable" (.object [("column", .string column), ("nullable", .bool nullable)])
  | setDefault column default =>
    .single "set_default" (.object [("column", .string column),
      ("default", (default.map DefaultValue.toJson).getD .null)])
  | setColumnComment column comment =>
    .single "set_column_comment" (.object [("column", .string column),
      ("comment", Json.ofOption comment)])
  | addConstraint constraint => .single "add_constraint" constraint.toJson
  | dropConstraint constraint => .single "drop_constraint" constraint.toJson
  | setComment comment => .single "set_comment" (Json.ofOption comment)
  | addEnumLabel label position =>
    .single "add_enum_label" (.object [("label", .string label), ("position", position.toJson)])
  | replaceFunction function => .single "replace_function" function.toJson

/-- Makes the custom types of a change that name an enum enum types. -/
def resolveEnums (isEnum : String → Bool) : AlterChange → AlterChange
  | addColumn column => addColumn { column with type := column.type.resolveEnums isEnum }
  | alterColumnType column source target =>
    alterColumnType column (source.resolveEnums isEnum) (target.resolveEnums isEnum)
  | change => change

end AlterChange

namespace Operation

/-- Reads an operation. -/
def ofJson? (value : Json) : Option Operation := do
  let (kind, value) ← value.single?
  match kind with
  | "create" => (SchemaObject.ofJson? value).map create
  | "drop" => (SchemaObject.ofJson? value).map drop
  | "alter" =>
    pure (alter (← ObjectId.ofJson? (value.member "target"))
      (← Json.list? AlterChange.ofJson? (value.member "changes")))
  | "rename" =>
    pure (rename (← ObjectId.ofJson? (value.member "from"))
      (← ObjectId.ofJson? (value.member "to")))
  | _ => none

/-- Makes the custom types of an operation that name an enum enum types. -/
def resolveEnums (isEnum : String → Bool) : Operation → Operation
  | create object => create (object.resolveEnums isEnum)
  | alter target changes => alter target (changes.map (AlterChange.resolveEnums isEnum))
  | operation => operation

end Operation

end SchemaPlan
