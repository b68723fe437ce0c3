import SchemaPlan.Schema.ObjectId

/-!
# Rename hints

A user confirms that an object or a column has a new name: `table:albums=album`,
`album.title=name`.
-/

set_option autoImplicit false

namespace SchemaPlan

/-- The text of a hint that can not be read. -/
structure InvalidHint where
  text : String
deriving DecidableEq, Repr

/-- What is said about a text that is no hint. -/
def InvalidHint.message (e : InvalidHint) : String :=
  "invalid rename '" ++ e.text ++ "': expected kind:old=new"

/-- An object has a new name.  Names of constraints and triggers are qualified by their table. -/
structure RenameHint where
  kind : ObjectKind
  source : String
  target : String
deriving DecidableEq, Repr

namespace RenameHint

/-- The identity before. -/
def sourceId (hint : RenameHint) : ObjectId := ⟨hint.kind, hint.source⟩

/-- The identity after. -/
def targetId (hint : RenameHint) : ObjectId := ⟨hint.kind, hint.target⟩

/-- The hint as it is read. -/
def text (hint : RenameHint) : String :=
  hint.kind.text ++ ":" ++ hint.source ++ "=" ++ hint.target

/-- Reads `kind:old=new`. -/
def parse (text : String) : Except InvalidHint RenameHint :=
  let found := do
    let (kind, names) ← Text.cut? ':' text.toList
    let kind ← ObjectKind.parse? (String.ofList kind)
    let (source, target) ← Text.cut? '=' names
    if source.isEmpty || target.isEmpty then none
    pure (RenameHint.mk kind (String.ofList source) (String.ofList target))
  match found with
  | some hint => .ok hint
  | none => .error ⟨text⟩

end RenameHint

/-- A column of a table has a new name; the table goes by its new name. -/
structure ColumnRenameHint where
  table : String
  source : String
  target : String
deriving DecidableEq, Repr

namespace ColumnRenameHint

/-- The hint as it is read. -/
def text (hint : ColumnRenameHint) : String :=
  hint.table ++ "." ++ hint.source ++ "=" ++ hint.target

/-- Reads `table.old=new`. -/
def parse (text : String) : Except InvalidHint ColumnRenameHint :=
  let found := do
    let (qualified, target) ← Text.cut? '=' text.toList
    let (table, source) ← Text.cut? '.' qualified
    if table.isEmpty || source.isEmpty || target.isEmpty then none
    pure (ColumnRenameHint.mk (String.ofList table) (String.ofList source) (String.ofList target))
  match found with
  | some hint => .ok hint
  | none => .error ⟨text⟩

end ColumnRenameHint

end SchemaPlan
