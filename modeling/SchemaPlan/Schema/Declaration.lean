import SchemaPlan.Json.Reader
import SchemaPlan.Schema.Encoding

/-!
# Declarations

A declaration is what an author writes down: a database with its extensions, enum types,
functions and tables.  It is stored as JSON; `Declaration.parse?` reads the stored text and
`Declaration.text` writes it.
-/

set_option autoImplicit false

namespace SchemaPlan

/-- The declared schema of a database. -/
structure Declaration where
  name : String
  schema : String := "public"
  extensions : List String := []
  enums : List EnumType := []
  functions : List Function := []
  tables : List Table := []
deriving DecidableEq, Repr

namespace Declaration

/-- Appends an extension. -/
def addExtension (declaration : Declaration) (name : String) : Declaration :=
  { declaration with extensions := declaration.extensions ++ [name] }

/-- Appends an enum type. -/
def addEnum (declaration : Declaration) (type : EnumType) : Declaration :=
  { declaration with enums := declaration.enums ++ [type] }

/-- Appends a function. -/
def addFunction (declaration : Declaration) (function : Function) : Declaration :=
  { declaration with functions := declaration.functions ++ [function] }

/-- Appends a table. -/
def addTable (declaration : Declaration) (table : Table) : Declaration :=
  { declaration with tables := declaration.tables ++ [table] }

/-- All objects: extensions, enums, functions, tables. -/
def objects (declaration : Declaration) : List SchemaObject :=
  declaration.extensions.map (fun name => .extension ⟨name⟩) ++
    declaration.enums.map .enum ++
    declaration.functions.map .function ++
    declaration.tables.map .table

/-- Reads a declaration. -/
def ofJson? (value : Json) : Option Declaration := do
  let record ← value.record? ["name", "schema", "extensions", "enums", "functions", "tables"]
  let name ← record.field? "name" Json.text?
  let schema ← record.fieldOr? "schema" "public" Json.text?
  let extensions ← record.fieldOr? "extensions" [] Json.texts?
  let enums ← record.fieldOr? "enums" [] (Json.list? EnumType.ofJson?)
  let functions ← record.fieldOr? "functions" [] (Json.list? Function.ofJson?)
  let tables ← record.fieldOr? "tables" [] (Json.list? Table.ofJson?)
  pure { name, schema, extensions, enums, functions, tables }

/-- Writes a declaration. -/
def toJson (declaration : Declaration) : Json :=
  .object [("name", .string declaration.name), ("schema", .string declaration.schema),
    ("extensions", Json.ofTexts declaration.extensions),
    ("enums", .array (declaration.enums.map EnumType.toJson)),
    ("functions", .array (declaration.functions.map Function.toJson)),
    ("tables", .array (declaration.tables.map Table.toJson))]

/-- Reads the stored text. -/
def parse? (text : String) : Option Declaration :=
  (Json.parse? text).bind ofJson?

/-- The text to store. -/
def text (declaration : Declaration) : String :=
  declaration.toJson.pretty

end Declaration

end SchemaPlan
