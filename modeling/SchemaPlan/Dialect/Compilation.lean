import SchemaPlan.Change.Plan
import SchemaPlan.Dialect.Script

/-!
# Compilation

From a declared and a live schema to the operations between them and their script.
-/

set_option autoImplicit false

namespace SchemaPlan

/-- A change set and the script that carries it out. -/
structure Compilation where
  changes : ChangeSet
  script : Script

/-- The change set and script that move a live schema to a declared one; the first error of the
comparison or of the dialect. -/
def Dialect.compile (dialect : Dialect) (options : DiffOptions) (declared live : SchemaGraph) :
    Except SchemaError Compilation := do
  let changes ← diff options declared live
  let script ← dialect.script changes.operations
  pure ⟨changes, script⟩

end SchemaPlan
