import SchemaPlan.Catalog.Assembly
import SchemaPlan.Session.Basic

/-!
# Reading a catalog

The eight lists of a catalog are read from a database and put together.

* `Catalog.readSnapshot` reads the rows,
* `Catalog.readGraph` makes a schema of them and reports when they make none.
-/

set_option autoImplicit false

namespace SchemaPlan.Catalog

open Database

/-- Reads the rows of a schema. -/
def readSnapshot (schema : String) : Attempt Snapshot := do
  Attempt.notice (.readingCatalog schema)
  let extensions ← Attempt.send (.readCatalog .extensions schema)
  let enums ← Attempt.send (.readCatalog .enums schema)
  let tables ← Attempt.send (.readCatalog .tables schema)
  let columns ← Attempt.send (.readCatalog .columns schema)
  let constraints ← Attempt.send (.readCatalog .constraints schema)
  let indexes ← Attempt.send (.readCatalog .indexes schema)
  let functions ← Attempt.send (.readCatalog .functions schema)
  let triggers ← Attempt.send (.readCatalog .triggers schema)
  pure ⟨extensions, enums, tables, columns, constraints, indexes, functions, triggers⟩

/-- Reads the live schema. -/
def readGraph (schema : String) : Attempt SchemaGraph := do
  let snapshot ← readSnapshot schema
  match snapshot.graph with
  | .ok graph => pure graph
  | .error cause =>
    match cause with
    | .unregistrable inner => Attempt.notice (.invalidLiveSchema inner)
    | _ => pure ()
    throw (.schema cause)

end SchemaPlan.Catalog
