import SchemaPlan.Graph.Basic
import SchemaPlan.Order.Topological
import SchemaPlan.Schema.Error

/-!
# Creation order

Objects are created after everything they depend on and dropped in the reverse order.
-/

set_option autoImplicit false

namespace SchemaPlan.SchemaGraph

/-- Every object with its dependencies. -/
def prerequisites (graph : SchemaGraph) : List (Order.Prerequisites ObjectId) :=
  graph.nodes.map fun node => ⟨node.id, node.dependsOn⟩

/-- The order in which the objects can be created. -/
def creationOrder (graph : SchemaGraph) : Except SchemaError (List ObjectId) :=
  match Order.Topological.sort graph.prerequisites with
  | .ok order => .ok order
  | .error cycle => .error (.cyclicDependency (cycle.map ObjectId.text))

/-- The order in which the objects can be dropped. -/
def deletionOrder (graph : SchemaGraph) : Except SchemaError (List ObjectId) :=
  match graph.creationOrder with
  | .ok order => .ok order.reverse
  | .error e => .error e

end SchemaPlan.SchemaGraph
