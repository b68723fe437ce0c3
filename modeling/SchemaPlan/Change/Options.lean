import SchemaPlan.Change.Hint
import SchemaPlan.Graph.Basic
import SchemaPlan.Number.Binary64

/-!
# Options of a comparison

What the user has confirmed or allowed.
-/

set_option autoImplicit false

namespace SchemaPlan

/-- The options of a comparison. -/
structure DiffOptions where
  renames : List RenameHint := []
  columnRenames : List ColumnRenameHint := []
  /-- Whether types may change so that values are lost. -/
  allowLossyTypes : Bool := false
  /-- Extensions that are neither created nor dropped. -/
  ignoredExtensions : List String := ["plpgsql"]
  /-- The least similarity of a column rename candidate: the number nearest to 0.4. -/
  threshold : Number.Binary64 := ⟨false, 7205759403792794, -54⟩

/-- Whether an object is an ignored extension. -/
def DiffOptions.ignores (options : DiffOptions) : SchemaObject → Bool
  | .extension extension => options.ignoredExtensions.contains extension.name
  | _ => false

/-- The graph without ignored extensions. -/
def SchemaGraph.withoutIgnored (graph : SchemaGraph) (options : DiffOptions) : SchemaGraph :=
  graph.retain fun object => !options.ignores object

end SchemaPlan
